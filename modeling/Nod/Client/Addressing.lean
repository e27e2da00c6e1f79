import Mathlib
import Nod.Server.Routes
import Nod.Server.Validation

/-
  How the client addresses an operation on a request, a channel or a device: the path is formatted
  with the ids as they are, joined to the path of the server's base address and set on the address,
  which walks dot segments away.
  Proved: the request arrives at the operation with the same ids, and no other operation shares its
  path, exactly when no id is `.` or `..` (`addressing`).
-/

namespace Nod.Client

open Lib Lib.UrlPath Nod.Server.Routes

/-! ## What the client sends -/

/-- An id that the server accepts. -/
abbrev Id := {id : String // ∃ label, Nod.Server.validateId id label = .ok ()}

/-- Calls of the client whose path carries an id. -/
inductive Operation
  | submitOption (requestId optionId : Id)
  | clearChannel (channelId : Id)
  | setSubscription (channelId : Id)
  | renameDevice (id : Id)
  | revokeDevice (id : Id)
  deriving DecidableEq

namespace Operation

def path : Operation → String
  | submitOption requestId optionId =>
    "/api/v1/requests/" ++ requestId.val ++ "/options/" ++ optionId.val
  | clearChannel channelId => "/api/v1/devices/me/channels/" ++ channelId.val ++ "/clear"
  | setSubscription channelId => "/api/v1/devices/me/subscriptions/" ++ channelId.val
  | renameDevice id => "/api/v1/users/me/devices/" ++ id.val
  | revokeDevice id => "/api/v1/users/me/devices/" ++ id.val

def method : Operation → Method
  | submitOption _ _ => .post
  | clearChannel _ => .post
  | setSubscription _ => .put
  | renameDevice _ => .put
  | revokeDevice _ => .delete

def ids : Operation → List Id
  | submitOption requestId optionId => [requestId, optionId]
  | clearChannel channelId => [channelId]
  | setSubscription channelId => [channelId]
  | renameDevice id => [id]
  | revokeDevice id => [id]

/-- The endpoint of the server that the operation is meant for. -/
def handler : Operation → Handler
  | submitOption _ _ => .submitOption
  | clearChannel _ => .clearChannel
  | setSubscription _ => .updateSubscription
  | renameDevice _ => .updateUserDevice
  | revokeDevice _ => .revokeUserDevice

/-- The device of the two calls that differ by their method alone. -/
def device? : Operation → Option Id
  | renameDevice id => some id
  | revokeDevice id => some id
  | _ => none

end Operation

def trimEnd (path : List Char) : List Char := path.rdropWhile (· = '/')

def joinPath (base path : List Char) : List Char :=
  let base := trimEnd base
  let path := path.dropWhile (· = '/')
  match base.isEmpty, path.isEmpty with
  | true, true => ['/']
  | true, false => '/' :: path
  | false, true => base
  | false, false => base ++ '/' :: path

/-- The path of an address whose path was written `raw`. -/
def basePath (E : EncodeSet) (raw : List Char) : List Char := serialize (parse E raw)

/-- `url`: the path of the request; a `?` would start its query. -/
def urlPath (E : EncodeSet) (base : List Char) (path : String) : List Char :=
  serialize (parse E (joinPath base (path.toList.takeWhile (· ≠ '?'))))

/-- What a server that is mounted at the base path is asked for. -/
def mounted (base path : List Char) : Option (List Char) := path.dropPrefix? (trimEnd base)

/-! ## The segments of a path -/

namespace Operation

def segments : Operation → List Segment
  | submitOption requestId optionId =>
    ["api".toList, "v1".toList, "requests".toList, requestId.val.toList, "options".toList,
      optionId.val.toList]
  | clearChannel channelId =>
    ["api".toList, "v1".toList, "devices".toList, "me".toList, "channels".toList,
      channelId.val.toList, "clear".toList]
  | setSubscription channelId =>
    ["api".toList, "v1".toList, "devices".toList, "me".toList, "subscriptions".toList,
      channelId.val.toList]
  | renameDevice id =>
    ["api".toList, "v1".toList, "users".toList, "me".toList, "devices".toList, id.val.toList]
  | revokeDevice id =>
    ["api".toList, "v1".toList, "users".toList, "me".toList, "devices".toList, id.val.toList]

theorem toList_path (op : Operation) : op.path.toList = serialize op.segments := by
  cases op with
  | submitOption requestId optionId =>
    have hrequests : "/api/v1/requests/".toList =
        serialize ["api".toList, "v1".toList, "requests".toList, []] := by decide
    have hoptions : "/options/".toList = serialize ["options".toList, []] := by decide
    unfold path segments
    rw [String.toList_append, String.toList_append, String.toList_append, hrequests, hoptions]
    simp only [serialize_cons, serialize_nil, List.append_nil, List.append_assoc,
      List.cons_append, List.nil_append]
  | clearChannel channelId =>
    have hchannels : "/api/v1/devices/me/channels/".toList = serialize ["api".toList, "v1".toList,
        "devices".toList, "me".toList, "channels".toList, []] := by decide
    have hclear : "/clear".toList = serialize ["clear".toList] := by decide
    unfold path segments
    rw [String.toList_append, String.toList_append, hchannels, hclear]
    simp only [serialize_cons, serialize_nil, List.append_nil, List.append_assoc,
      List.cons_append, List.nil_append]
  | setSubscription channelId =>
    have hsubscriptions : "/api/v1/devices/me/subscriptions/".toList = serialize ["api".toList,
        "v1".toList, "devices".toList, "me".toList, "subscriptions".toList, []] := by decide
    unfold path segments
    rw [String.toList_append, hsubscriptions]
    simp only [serialize_cons, serialize_nil, List.append_nil, List.append_assoc,
      List.cons_append, List.nil_append]
  | renameDevice id | revokeDevice id =>
    have hdevices : "/api/v1/users/me/devices/".toList = serialize ["api".toList, "v1".toList,
        "users".toList, "me".toList, "devices".toList, []] := by decide
    unfold path segments
    rw [String.toList_append, hdevices]
    simp only [serialize_cons, serialize_nil, List.append_nil, List.append_assoc,
      List.cons_append, List.nil_append]

end Operation

theorem plain_of_id (id : Id) : ∀ c ∈ id.val.toList, isPlain c = true := by
  obtain ⟨label, hvalid⟩ := id.property
  intro c hc
  have hslug := (Nod.Server.validateId_eq_ok.mp hvalid).2.2 c hc
  simp only [Nod.Server.isSlugChar, isPlain, Bool.or_eq_true] at hslug ⊢
  exact Or.inl hslug

theorem toList_id_ne_nil (id : Id) : id.val.toList ≠ [] := by
  obtain ⟨label, hvalid⟩ := id.property
  intro h
  exact (Nod.Server.validateId_eq_ok.mp hvalid).1 (String.toList_eq_nil_iff.mp h)

/-- The fixed segments of the paths. -/
def words : List Segment :=
  ["api".toList, "v1".toList, "requests".toList, "options".toList, "devices".toList, "me".toList,
    "channels".toList, "clear".toList, "subscriptions".toList, "users".toList]

/-- What holds of the fixed segments and of the ids holds of every segment. -/
theorem forall_segments {p : Segment → Prop} (op : Operation) (hwords : ∀ word ∈ words, p word)
    (hids : ∀ id ∈ op.ids, p id.val.toList) : ∀ segment ∈ op.segments, p segment := by
  have hnone : ∀ segment : Segment, segment ∈ [] → p segment := fun _ h => (nomatch h)
  simp only [words, List.forall_mem_cons] at hwords
  obtain ⟨api, v1, requests, options, devices, me, channels, clear, subscriptions, users, -⟩ := hwords
  cases op with
  | submitOption requestId optionId =>
    simp only [Operation.ids, List.forall_mem_cons] at hids
    simp only [Operation.segments, List.forall_mem_cons]
    exact ⟨api, v1, requests, hids.1, options, hids.2.1, hnone⟩
  | clearChannel channelId =>
    simp only [Operation.ids, List.forall_mem_cons] at hids
    simp only [Operation.segments, List.forall_mem_cons]
    exact ⟨api, v1, devices, me, channels, hids.1, clear, hnone⟩
  | setSubscription channelId =>
    simp only [Operation.ids, List.forall_mem_cons] at hids
    simp only [Operation.segments, List.forall_mem_cons]
    exact ⟨api, v1, devices, me, subscriptions, hids.1, hnone⟩
  | renameDevice id | revokeDevice id =>
    simp only [Operation.ids, List.forall_mem_cons] at hids
    simp only [Operation.segments, List.forall_mem_cons]
    exact ⟨api, v1, users, me, devices, hids.1, hnone⟩

theorem forall_ids {p : Segment → Prop} {op : Operation} (h : ∀ segment ∈ op.segments, p segment) :
    ∀ id ∈ op.ids, p id.val.toList := by
  cases op with
  | submitOption | clearChannel | setSubscription | renameDevice | revokeDevice =>
    simp only [Operation.segments, Operation.ids, List.forall_mem_cons] at h ⊢
    simp only [h, and_self, List.not_mem_nil, false_implies, implies_true]

theorem plain_segments (op : Operation) :
    ∀ segment ∈ op.segments, ∀ c ∈ segment, isPlain c = true := by
  refine forall_segments op ?_ fun id _ => plain_of_id id
  simp only [← List.all_eq_true]
  decide

/-! ## What the server is asked for -/

variable {E : EncodeSet} {raw : List Char}

/-- The segments of the base path, without the trailing empty ones. -/
def baseSegments (E : EncodeSet) (raw : List Char) : List Segment :=
  (parse E raw).rdropWhile (· = [])

/-- The segments that are left of the path of an operation. -/
def arrives (op : Operation) : List Segment := walk [] op.segments

theorem read_baseSegments : Read E (baseSegments E raw) := fun segment hsegment =>
  read_parse raw segment ((List.rdropWhile_prefix _ _).subset hsegment)

theorem trimEnd_basePath : trimEnd (basePath E raw) = serialize (baseSegments E raw) :=
  trimEnd_serialize fun segment hsegment => not_slash_of_settled (read_parse raw segment hsegment).1

theorem settled_segments (op : Operation) :
    ∀ segment ∈ op.segments, Lib.UrlPath.Settled E segment :=
  fun segment hsegment => settled_of_plain (plain_segments op segment hsegment)

theorem read_arrives (op : Operation) : Read E (arrives op) :=
  read_walk (fun _ h => (nomatch h)) (settled_segments op)

theorem segments_ne_nil (op : Operation) : op.segments ≠ [] := by
  cases op <;> exact List.cons_ne_nil _ _

/-- No query is cut off the path. -/
theorem takeWhile_path (op : Operation) :
    op.path.toList.takeWhile (· ≠ '?') = serialize op.segments := by
  rw [op.toList_path, List.takeWhile_eq_self_iff]
  intro c hc
  obtain ⟨segment, hsegment, hc⟩ := List.mem_flatMap.mp hc
  rw [decide_eq_true_eq]
  rintro rfl
  rcases List.mem_cons.mp hc with hslash | hc
  · exact absurd hslash (by decide)
  · exact absurd (plain_segments op segment hsegment '?' hc) (by decide)

theorem joinPath_serialize {base : List Segment} (op : Operation) :
    joinPath (serialize base) (serialize op.segments) =
      trimEnd (serialize base) ++ serialize op.segments := by
  have hpath : ∃ rest, serialize op.segments = '/' :: rest ∧
      (serialize op.segments).dropWhile (· = '/') = rest ∧ rest.isEmpty = false := by
    have hword : ∃ rest, op.segments = "api".toList :: rest := by
      cases op <;> exact ⟨_, rfl⟩
    obtain ⟨rest, hrest⟩ := hword
    exact ⟨"api".toList ++ serialize rest, by rw [hrest, serialize_cons], by rw [hrest]; rfl, rfl⟩
  obtain ⟨rest, hwritten, hdropped, hne⟩ := hpath
  unfold joinPath
  simp only [hdropped, hne]
  cases hbase : trimEnd (serialize base) with
  | nil => exact hwritten.symm
  | cons c cs => rw [hwritten]; rfl

theorem isDot_words : ∀ word ∈ words, isDot word = false := by decide

/-- Dots step back over segments of the operation alone. -/
theorem walk_segments (base : List Segment) (op : Operation) :
    walk base op.segments = base ++ arrives op := by
  have hcut : ∃ front back, op.segments = front ++ back ∧ (∀ word ∈ front, word ∈ words) ∧
      back.length ≤ front.length := by
    cases op with
    | submitOption => exact ⟨_, _, (List.take_append_drop 3 _).symm, by simp [Operation.segments, words],
        by simp [Operation.segments]⟩
    | clearChannel | setSubscription | renameDevice | revokeDevice =>
      exact ⟨_, _, (List.take_append_drop 4 _).symm, by simp [Operation.segments, words],
        by simp [Operation.segments]⟩
  obtain ⟨front, back, hsegments, hwords, hlength⟩ := hcut
  have hplain : ∀ segment ∈ front, isDot segment = false :=
    fun segment hs => isDot_words segment (hwords segment hs)
  unfold arrives
  rw [hsegments, walk_append hplain, walk_append hplain, List.nil_append]
  exact walk_base (Nat.le_trans List.countP_le_length hlength)

theorem urlPath_eq (op : Operation) :
    urlPath E (basePath E raw) op.path = serialize (baseSegments E raw ++ arrives op) := by
  unfold urlPath
  rw [takeWhile_path]
  unfold basePath
  rw [joinPath_serialize]
  have htrim := @trimEnd_basePath E raw
  unfold basePath at htrim
  rw [htrim, ← serialize_append, parse_serialize_append read_baseSegments (settled_segments op)
    (List.append_ne_nil_of_right_ne_nil _ (segments_ne_nil op)), walk_segments]

theorem mounted_urlPath (op : Operation) :
    mounted (basePath E raw) (urlPath E (basePath E raw) op.path) = some (serialize (arrives op)) := by
  unfold mounted
  rw [urlPath_eq, trimEnd_basePath, serialize_append, List.dropPrefix?_eq_some_iff]
  exact ⟨_, rfl, beq_self_eq_true _⟩

theorem cut_arrives (op : Operation) : cut (serialize (arrives op)) = arrives op := by
  have hread : Read ⟨fun _ => false, fun _ _ => rfl⟩ (arrives op) := read_arrives op
  exact cut_serialize (fun segment hs => not_slash_of_settled (hread segment hs).1)
    (walk_ne_nil (segments_ne_nil op) _)

/-- Two operations share a path where the same segments are left of theirs. -/
theorem arrives_eq_of_urlPath {op other : Operation}
    (h : urlPath E (basePath E raw) other.path = urlPath E (basePath E raw) op.path) :
    arrives other = arrives op := by
  rw [urlPath_eq, urlPath_eq, serialize_append, serialize_append] at h
  have hcut := congrArg cut (List.append_cancel_left h)
  rwa [cut_arrives, cut_arrives] at hcut

/-! ## Ids that are dots -/

/-- No id of the operation is a dot segment. -/
def Operation.Plain (op : Operation) : Prop := ∀ id ∈ op.ids, id.val ≠ "." ∧ id.val ≠ ".."

theorem isDot_id (id : Id) : isDot id.val.toList = false ↔ id.val ≠ "." ∧ id.val ≠ ".." := by
  have hdot : isDot ".".toList = true := by decide
  have hdots : isDot "..".toList = true := by decide
  constructor
  · intro h
    constructor
    · intro heq
      rw [heq, hdot] at h
      cases h
    · intro heq
      rw [heq, hdots] at h
      cases h
  · rintro ⟨hsingle, hdouble⟩
    rw [← Bool.not_eq_true]
    intro h
    rcases dot_cases h with heq | heq | hpercent
    · exact hsingle (String.toList_inj.mp heq)
    · exact hdouble (String.toList_inj.mp heq)
    · obtain ⟨label, hvalid⟩ := id.property
      exact absurd ((Nod.Server.validateId_eq_ok.mp hvalid).2.2 '%' hpercent) (by decide)

theorem plain_iff (op : Operation) :
    op.Plain ↔ ∀ segment ∈ op.segments, isDot segment = false := by
  refine ⟨fun h => forall_segments op isDot_words fun id hid => (isDot_id id).mpr (h id hid),
    fun h id hid => (isDot_id id).mp (forall_ids h id hid)⟩

theorem arrives_of_plain {op : Operation} (h : op.Plain) : arrives op = op.segments := by
  unfold arrives
  rw [walk_plain ((plain_iff op).mp h), List.nil_append]

/-! ## The routes of the operations -/

def optionRoute : Route :=
  ⟨"/api/v1/requests/{request_id}/options/{option_id}", [(.post, .submitOption)]⟩

def clearRoute : Route :=
  ⟨"/api/v1/devices/me/channels/{channel_id}/clear", [(.post, .clearChannel)]⟩

def subscriptionRoute : Route :=
  ⟨"/api/v1/devices/me/subscriptions/{channel_id}", [(.put, .updateSubscription)]⟩

def deviceRoute : Route :=
  ⟨"/api/v1/users/me/devices/{device_id}",
    [(.put, .updateUserDevice), (.delete, .revokeUserDevice)]⟩

/-- The route an operation is meant to go along. -/
def Operation.route : Operation → Route
  | submitOption _ _ => optionRoute
  | clearChannel _ => clearRoute
  | setSubscription _ => subscriptionRoute
  | renameDevice _ => deviceRoute
  | revokeDevice _ => deviceRoute

/-- The route is in the list, and the only one where the handler takes the method. -/
structure Routed (method : Method) (handler : Handler) (r : Route) : Prop where
  mem : r ∈ router
  handles : r.methods.lookup method = some handler
  only : ∀ other ∈ router, other.methods.lookup method = some handler → other = r

theorem routed (op : Operation) : Routed op.method op.handler op.route := by
  have hoption : Routed .post .submitOption optionRoute :=
    ⟨List.mem_iff_getElem?.mpr ⟨37, rfl⟩, by decide, by decide⟩
  have hclear : Routed .post .clearChannel clearRoute :=
    ⟨List.mem_iff_getElem?.mpr ⟨31, rfl⟩, by decide, by decide⟩
  have hsubscription : Routed .put .updateSubscription subscriptionRoute :=
    ⟨List.mem_iff_getElem?.mpr ⟨30, rfl⟩, by decide, by decide⟩
  have hrename : Routed .put .updateUserDevice deviceRoute :=
    ⟨List.mem_iff_getElem?.mpr ⟨26, rfl⟩, by decide, by decide⟩
  have hrevoke : Routed .delete .revokeUserDevice deviceRoute :=
    ⟨hrename.mem, by decide, by decide⟩
  cases op with
  | submitOption => exact hoption
  | clearChannel => exact hclear
  | setSubscription => exact hsubscription
  | renameDevice => exact hrename
  | revokeDevice => exact hrevoke

/-- The pattern of an operation matches its path, and its last piece is not empty. -/
theorem captures_segments (op : Operation) :
    captures op.route.pieces op.segments = some (op.ids.map fun id => id.val.toList) ∧
      op.route.pieces.getLast? ≠ some (.literal []) := by
  have hne := toList_id_ne_nil
  unfold Operation.route Operation.segments Operation.ids
  cases op with
  | submitOption requestId optionId =>
    have hpieces : optionRoute.pieces = [.literal "api".toList, .literal "v1".toList,
        .literal "requests".toList, .parameter "request_id".toList, .literal "options".toList,
        .parameter "option_id".toList] := by
      unfold optionRoute
      rw [pieces_ofList]
      decide
    rw [hpieces, captures_same, captures_same, captures_same, captures_filled (hne requestId),
      captures_same, captures_filled (hne optionId)]
    exact ⟨rfl, by decide⟩
  | clearChannel id =>
    have hpieces : clearRoute.pieces = [.literal "api".toList, .literal "v1".toList,
        .literal "devices".toList, .literal "me".toList, .literal "channels".toList,
        .parameter "channel_id".toList, .literal "clear".toList] := by
      unfold clearRoute
      rw [pieces_ofList]
      decide
    rw [hpieces, captures_same, captures_same, captures_same, captures_same, captures_same,
      captures_filled (hne id), captures_same]
    exact ⟨rfl, by decide⟩
  | setSubscription id =>
    have hpieces : subscriptionRoute.pieces = [.literal "api".toList, .literal "v1".toList,
        .literal "devices".toList, .literal "me".toList, .literal "subscriptions".toList,
        .parameter "channel_id".toList] := by
      unfold subscriptionRoute
      rw [pieces_ofList]
      decide
    rw [hpieces, captures_same, captures_same, captures_same, captures_same, captures_same,
      captures_filled (hne id)]
    exact ⟨rfl, by decide⟩
  | renameDevice id | revokeDevice id =>
    have hpieces : deviceRoute.pieces = [.literal "api".toList, .literal "v1".toList,
        .literal "users".toList, .literal "me".toList, .literal "devices".toList,
        .parameter "device_id".toList] := by
      unfold deviceRoute
      rw [pieces_ofList]
      decide
    rw [hpieces, captures_same, captures_same, captures_same, captures_same, captures_same,
      captures_filled (hne id)]
    exact ⟨rfl, by decide⟩

/-! ## Addressing -/

/-- The request arrives at the operation with the same ids, and the path is that of no other
    operation; renaming and revoking a device differ by the method. -/
structure Addressed (E : EncodeSet) (D : Decoder) (raw : List Char) (op : Operation) : Prop where
  reaches : ∃ path, mounted (basePath E raw) (urlPath E (basePath E raw) op.path) = some path ∧
    dispatch D op.method path = .handled op.handler (op.ids.map fun id => id.val.toList)
  own : ∀ other : Operation,
    urlPath E (basePath E raw) other.path = urlPath E (basePath E raw) op.path → other = op ∨
      (∃ id, op.device? = some id ∧ other.device? = some id ∧ other.method ≠ op.method)

theorem dispatch_of_plain {D : Decoder} {op : Operation} (h : op.Plain) :
    dispatch D op.method (serialize (arrives op)) =
      .handled op.handler (op.ids.map fun id => id.val.toList) := by
  refine dispatch_of_findRoute (r := op.route) ?_ (routed op).handles fun segment hsegment => ?_
  · rw [cut_arrives, arrives_of_plain h]
    exact findRoute_of_mem (routed op).mem (captures_segments op).1
  · obtain ⟨id, -, rfl⟩ := List.mem_map.mp hsegment
    intro hpercent
    obtain ⟨label, hvalid⟩ := id.property
    exact absurd ((Nod.Server.validateId_eq_ok.mp hvalid).2.2 '%' hpercent) (by decide)

/-- What is left of a path that reaches its handler: all of it. -/
theorem plain_of_dispatch {D : Decoder} {op : Operation} {parameters : List (List Char)}
    (h : dispatch D op.method (serialize (arrives op)) = .handled op.handler parameters) :
    op.Plain := by
  obtain ⟨r, hr, found, hhandles, hmatch⟩ := reached_of_dispatch h
  obtain rfl := (routed op).only r hr hhandles
  rw [cut_arrives] at hmatch
  obtain ⟨hlength, hfull⟩ := length_of_captures hmatch
  have hwritten := (length_of_captures (captures_segments op).1).1
  rw [plain_iff]
  refine @not_dot_of_walk [] _ ?_ (hfull (captures_segments op).2)
  rw [List.length_nil, Nat.zero_add, hwritten]
  exact hlength

/-- Segments tell operations apart, up to the method. -/
theorem eq_of_segments {op other : Operation} (h : other.segments = op.segments) :
    other = op ∨
      ∃ id, op.device? = some id ∧ other.device? = some id ∧ other.method ≠ op.method := by
  have hop := (captures_segments op).1
  have hother := (captures_segments other).1
  rw [h] at hother
  have hroute : other.route = op.route :=
    eq_of_overlap (routed op).mem (routed other).mem (overlap_of_captures hop hother)
  rw [hroute, hop, Option.some.injEq] at hother
  have hids : op.ids = other.ids :=
    List.map_injective_iff.mpr (fun a b hab => Subtype.ext (String.toList_inj.mp hab)) hother
  have hclear : clearRoute ≠ optionRoute := by decide
  have hsubscription : subscriptionRoute ≠ optionRoute ∧ subscriptionRoute ≠ clearRoute := by decide
  have hdevice : deviceRoute ≠ optionRoute ∧ deviceRoute ≠ clearRoute ∧
      deviceRoute ≠ subscriptionRoute := by decide
  cases op with
  | submitOption requestId optionId =>
    cases other with
    | submitOption => cases hids; exact Or.inl rfl
    | clearChannel => exact absurd hroute hclear
    | setSubscription => exact absurd hroute hsubscription.1
    | renameDevice | revokeDevice => exact absurd hroute hdevice.1
  | clearChannel channelId =>
    cases other with
    | submitOption => exact absurd hroute.symm hclear
    | clearChannel => cases hids; exact Or.inl rfl
    | setSubscription => exact absurd hroute hsubscription.2
    | renameDevice | revokeDevice => exact absurd hroute hdevice.2.1
  | setSubscription channelId =>
    cases other with
    | submitOption => exact absurd hroute.symm hsubscription.1
    | clearChannel => exact absurd hroute.symm hsubscription.2
    | setSubscription => cases hids; exact Or.inl rfl
    | renameDevice | revokeDevice => exact absurd hroute hdevice.2.2
  | renameDevice id =>
    cases other with
    | submitOption => exact absurd hroute.symm hdevice.1
    | clearChannel => exact absurd hroute.symm hdevice.2.1
    | setSubscription => exact absurd hroute.symm hdevice.2.2
    | renameDevice => cases hids; exact Or.inl rfl
    | revokeDevice => cases hids; exact Or.inr ⟨id, rfl, rfl, fun h => (by cases h)⟩
  | revokeDevice id =>
    cases other with
    | submitOption => exact absurd hroute.symm hdevice.1
    | clearChannel => exact absurd hroute.symm hdevice.2.1
    | setSubscription => exact absurd hroute.symm hdevice.2.2
    | renameDevice => cases hids; exact Or.inr ⟨id, rfl, rfl, fun h => (by cases h)⟩
    | revokeDevice => cases hids; exact Or.inl rfl

/-- Clearing a channel whose id is a dot asks for a path that belongs to no other operation. -/
theorem captures_arrives_clearChannel {channelId : Id}
    (h : ¬ Operation.Plain (.clearChannel channelId)) :
    captures optionRoute.pieces (arrives (.clearChannel channelId)) = none ∧
      captures subscriptionRoute.pieces (arrives (.clearChannel channelId)) = none ∧
      captures deviceRoute.pieces (arrives (.clearChannel channelId)) = none := by
  have hdot : channelId.val = "." ∨ channelId.val = ".." := by
    by_contra hno
    rw [not_or] at hno
    refine h fun id hid => ?_
    rw [List.mem_singleton.mp hid]
    exact hno
  rcases hdot with hid | hid
  · have hleft : arrives (.clearChannel channelId) = ["api".toList, "v1".toList, "devices".toList,
        "me".toList, "channels".toList, "clear".toList] := by
      simp only [arrives, Operation.segments, hid]
      decide
    rw [hleft]
    decide
  · have hleft : arrives (.clearChannel channelId) = ["api".toList, "v1".toList, "devices".toList,
        "me".toList, "clear".toList] := by
      simp only [arrives, Operation.segments, hid]
      decide
    rw [hleft]
    decide

/-- What dots leave of a path is the path of no operation without dots. -/
theorem plain_of_arrives {op other : Operation} (hop : op.Plain)
    (h : arrives other = arrives op) : other.Plain := by
  rw [arrives_of_plain hop] at h
  obtain ⟨hmatch, hfull⟩ := captures_segments op
  have hle : (arrives other).length ≤ other.segments.length := by
    have := length_walk_le [] other.segments
    rwa [List.length_nil, Nat.zero_add] at this
  rcases Nat.lt_or_ge op.segments.length other.segments.length with hlt | hge
  · -- Only the path to clear a channel is longer than another.
    exfalso
    cases other with
    | submitOption | setSubscription | renameDevice | revokeDevice =>
      cases op <;> exact absurd hlt (by simp only [Operation.segments, List.length_cons]; omega)
    | clearChannel channelId =>
      obtain hplain | hdots := em (Operation.Plain (.clearChannel channelId))
      · rw [← h, arrives_of_plain hplain] at hlt
        omega
      · rw [← h] at hmatch
        have hnone := captures_arrives_clearChannel hdots
        cases op with
        | clearChannel => exact absurd hlt (Nat.lt_irrefl _)
        | submitOption => exact absurd (hmatch.symm.trans hnone.1) (Option.some_ne_none _)
        | setSubscription => exact absurd (hmatch.symm.trans hnone.2.1) (Option.some_ne_none _)
        | renameDevice | revokeDevice => exact absurd (hmatch.symm.trans hnone.2.2) (Option.some_ne_none _)
  · rw [plain_iff]
    refine @not_dot_of_walk [] _ ?_ ?_
    · rw [List.length_nil, Nat.zero_add]
      rw [h] at hle
      have hlength : (walk [] other.segments).length = op.segments.length := congrArg List.length h
      omega
    · have hnone := (length_of_captures hmatch).2 hfull
      rw [← h] at hnone
      exact hnone

theorem Addressed.plain {D : Decoder} {op : Operation} (h : Addressed E D raw op) : op.Plain := by
  obtain ⟨path, hpath, hdispatch⟩ := h.reaches
  rw [mounted_urlPath, Option.some.injEq] at hpath
  rw [← hpath] at hdispatch
  exact plain_of_dispatch hdispatch

/-- A request arrives at its operation, with the same ids and on a path of its own, exactly when no
    id of it is `.` or `..`. -/
theorem addressing (E : EncodeSet) (D : Decoder) (raw : List Char) (op : Operation) :
    Addressed E D raw op ↔ op.Plain := by
  constructor
  · exact Addressed.plain
  · intro h
    refine ⟨⟨_, mounted_urlPath op, dispatch_of_plain h⟩, fun other hpath => ?_⟩
    have harrives := arrives_eq_of_urlPath hpath
    have hplain := plain_of_arrives h harrives
    rw [arrives_of_plain hplain, arrives_of_plain h] at harrives
    exact eq_of_segments harrives

/-! ## An option that cannot be submitted -/

/-- The path percent-encode set of the URL standard. -/
def pathPercentEncodeSet : EncodeSet where
  encodes c := decide (c.toNat ≤ 0x20) || decide (0x7E < c.toNat) ||
    decide (c ∈ ['\x22', '#', '<', '>', '?', '^', '\x60', '\x7b', '\x7d'])
  plain c h := by
    have hrange : 0x20 < c.toNat ∧ c.toNat ≤ 0x7E := by
      simp only [isPlain, Char.isAlphanum, Char.isAlpha, Char.isUpper, Char.isLower, Char.isDigit,
        Bool.or_eq_true, Bool.and_eq_true, decide_eq_true_eq, beq_iff_eq, ge_iff_le,
        UInt32.le_iff_toNat_le] at h
      have hval : c.toNat = c.val.toNat := rfl
      rcases h with ((((((h | h) | h) | rfl) | rfl) | rfl) | rfl)
      all_goals first | decide | (simp at h; omega)
    have hother : ∀ d ∈ ['\x22', '#', '<', '>', '?', '^', '\x60', '\x7b', '\x7d'],
        isPlain d = false := by
      simp only [← Bool.not_eq_true', ← List.all_eq_true]
      decide
    simp only [Bool.or_eq_false_iff, decide_eq_false_iff_not]
    refine ⟨⟨by omega, by omega⟩, fun hmem => ?_⟩
    rw [hother c hmem] at h
    cases h

/-- A decoder of captured segments that hold no escape. -/
def unescaped : Decoder where
  decode segment := if '%' ∈ segment then none else some segment
  plain _ h := if_neg h

/-- The option `..` of a request: its submission asks for another path. -/
theorem option_unaddressed :
    let op := Operation.submitOption ⟨"req-1", "request id", rfl⟩ ⟨"..", "option id", rfl⟩
    urlPath pathPercentEncodeSet (basePath pathPercentEncodeSet "/nod/".toList) op.path =
        "/nod/api/v1/requests/req-1/".toList ∧
      ¬ Addressed pathPercentEncodeSet unescaped "/nod/".toList op := by
  refine ⟨by decide, fun h => ?_⟩
  exact (h.plain ⟨"..", "option id", rfl⟩ (List.mem_cons_of_mem _ List.mem_cons_self)).2 rfl

end Nod.Client
