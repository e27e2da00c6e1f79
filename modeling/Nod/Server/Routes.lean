import Nod.Lib.UrlPath
import Mathlib.Data.List.Pairwise

/-
  The routes of the server, as its router lists them, and how a request finds its handler: the path
  is matched first (segment by segment, a literal before a parameter, no parameter empty), then the
  method, and the handler is given what the parameters captured.
  Proved: no path matches two routes of the list (`router_apart`), so a route is found by every path
  it matches (`findRoute_of_mem`); a request that reached a handler went along a route of the list,
  whose pattern its segments match (`reached_of_dispatch`).
-/

namespace Nod.Server.Routes

open Lib.UrlPath

inductive Method
  | get | post | put | delete
  deriving DecidableEq, Repr

/-- The endpoint functions of the server. -/
inductive Handler
  | integrationEventsList | integrationEventsDetail | bindOrigin | adminPage
  | createAdminSession | deleteAdminSession | health | listChannels | listAdminChannels
  | createChannel | deleteAdminChannel | listAdminUsers | createUser | updateAdminUser
  | deleteAdminUser | createEnrollmentCode | listAdminUserSubscriptions
  | updateAdminUserSubscriptions | listAdminDevices | deleteAdminDevice
  | updateAdminSubscription | listAdminIssuerTokens | createIssuerToken
  | revokeAdminIssuerToken | createAdminTestRequest | activity | adminSummary | adminSettings
  | enrollDevice | currentUser | listUserDevices | updateUserDevice | revokeUserDevice
  | updatePushToken | updateNotificationPreferences | updateDevicePreferences
  | updateSubscription | clearChannel | createRequest | listRequests | getRequest
  | cancelRequest | getRequestDecision | waitForRequestDecision | submitOption | syncSocket
  deriving DecidableEq, Repr

structure Route where
  path : String
  methods : List (Method × Handler)
  deriving DecidableEq, Repr

def router : List Route := [
  ⟨"/api/v1/integrations/events", [(.get, .integrationEventsList)]⟩,
  ⟨"/api/v1/integrations/events/{event_id}", [(.get, .integrationEventsDetail)]⟩,
  ⟨"/api/v1/integrations/requests/{request_id}/origin", [(.post, .bindOrigin)]⟩,
  ⟨"/admin", [(.get, .adminPage)]⟩,
  ⟨"/admin/", [(.get, .adminPage)]⟩,
  ⟨"/admin/session", [(.post, .createAdminSession), (.delete, .deleteAdminSession)]⟩,
  ⟨"/health", [(.get, .health)]⟩,
  ⟨"/api/v1/channels", [(.get, .listChannels)]⟩,
  ⟨"/api/v1/admin/channels", [(.get, .listAdminChannels), (.post, .createChannel)]⟩,
  ⟨"/api/v1/admin/channels/{channel_id}", [(.delete, .deleteAdminChannel)]⟩,
  ⟨"/api/v1/admin/users", [(.get, .listAdminUsers), (.post, .createUser)]⟩,
  ⟨"/api/v1/admin/users/{user_id}", [(.put, .updateAdminUser), (.delete, .deleteAdminUser)]⟩,
  ⟨"/api/v1/admin/users/{user_id}/enrollment-codes", [(.post, .createEnrollmentCode)]⟩,
  ⟨"/api/v1/admin/users/{user_id}/subscriptions",
    [(.get, .listAdminUserSubscriptions), (.put, .updateAdminUserSubscriptions)]⟩,
  ⟨"/api/v1/admin/devices", [(.get, .listAdminDevices)]⟩,
  ⟨"/api/v1/admin/devices/{device_id}", [(.delete, .deleteAdminDevice)]⟩,
  ⟨"/api/v1/admin/devices/{device_id}/subscriptions/{channel_id}",
    [(.put, .updateAdminSubscription)]⟩,
  ⟨"/api/v1/admin/issuer-tokens", [(.get, .listAdminIssuerTokens), (.post, .createIssuerToken)]⟩,
  ⟨"/api/v1/admin/issuer-tokens/{token_id}", [(.delete, .revokeAdminIssuerToken)]⟩,
  ⟨"/api/v1/admin/test-requests", [(.post, .createAdminTestRequest)]⟩,
  ⟨"/api/v1/admin/activity", [(.get, .activity)]⟩,
  ⟨"/api/v1/admin/summary", [(.get, .adminSummary)]⟩,
  ⟨"/api/v1/admin/settings", [(.get, .adminSettings)]⟩,
  ⟨"/api/v1/enroll", [(.post, .enrollDevice)]⟩,
  ⟨"/api/v1/users/me", [(.get, .currentUser)]⟩,
  ⟨"/api/v1/users/me/devices", [(.get, .listUserDevices)]⟩,
  ⟨"/api/v1/users/me/devices/{device_id}",
    [(.put, .updateUserDevice), (.delete, .revokeUserDevice)]⟩,
  ⟨"/api/v1/devices/me/push-token", [(.put, .updatePushToken)]⟩,
  ⟨"/api/v1/devices/me/notification-preferences", [(.put, .updateNotificationPreferences)]⟩,
  ⟨"/api/v1/devices/me/preferences", [(.put, .updateDevicePreferences)]⟩,
  ⟨"/api/v1/devices/me/subscriptions/{channel_id}", [(.put, .updateSubscription)]⟩,
  ⟨"/api/v1/devices/me/channels/{channel_id}/clear", [(.post, .clearChannel)]⟩,
  ⟨"/api/v1/requests", [(.post, .createRequest), (.get, .listRequests)]⟩,
  ⟨"/api/v1/requests/{request_id}", [(.get, .getRequest)]⟩,
  ⟨"/api/v1/requests/{request_id}/cancel", [(.post, .cancelRequest)]⟩,
  ⟨"/api/v1/requests/{request_id}/decision", [(.get, .getRequestDecision)]⟩,
  ⟨"/api/v1/requests/{request_id}/wait", [(.get, .waitForRequestDecision)]⟩,
  ⟨"/api/v1/requests/{request_id}/options/{option_id}", [(.post, .submitOption)]⟩,
  ⟨"/api/v1/sync", [(.get, .syncSocket)]⟩]

/-! ## Matching a path -/

/-- A piece of a route: fixed text, or a parameter in braces. -/
inductive Piece
  | literal (text : Segment)
  | parameter (name : Segment)
  deriving DecidableEq, Repr

def piece (text : Segment) : Piece :=
  if text.head? = some '\x7b' then .parameter text.tail.dropLast else .literal text

def cut (path : List Char) : List Segment := (path.drop 1).splitOnP (· = '/')

def Route.pieces (r : Route) : List Piece := (cut r.path.toList).map piece

/-- What the parameters of a route capture, if the segments match it. A path may be empty between two
    slashes where a parameter stands, but not end in an empty one. -/
def captures : List Piece → List Segment → Option (List Segment)
  | [], [] => some []
  | .literal text :: pieces, segment :: segments =>
    if segment = text then captures pieces segments else none
  | .parameter _ :: pieces, segment :: segments =>
    if segment = [] ∧ segments = [] then none else (captures pieces segments).map (segment :: ·)
  | _, _ => none

/-- Of two routes that match, the one whose first difference is a literal goes first. -/
def moreLiteral : List Piece → List Piece → Bool
  | .literal _ :: _, .parameter _ :: _ => true
  | .parameter _ :: _, .literal _ :: _ => false
  | _ :: pieces, _ :: others => moreLiteral pieces others
  | _, _ => false

def better (best : Option (Route × List Segment)) (found : Route × List Segment) :
    Option (Route × List Segment) :=
  match best with
  | none => some found
  | some old => if moreLiteral found.1.pieces old.1.pieces then some found else some old

def findRoute (routes : List Route) (segments : List Segment) : Option (Route × List Segment) :=
  (routes.filterMap fun r => (captures r.pieces segments).map fun found => (r, found)).foldl
    better none

/-- Two patterns that some path could both match. -/
def overlap : List Piece → List Piece → Bool
  | [], [] => true
  | .literal text :: pieces, .literal other :: others => text = other && overlap pieces others
  | .literal _ :: pieces, .parameter _ :: others => overlap pieces others
  | .parameter _ :: pieces, _ :: others => overlap pieces others
  | _, _ => false

/-! ## Dispatch -/

inductive Outcome
  | notFound
  | methodNotAllowed
  | undecodable
  | handled (handler : Handler) (parameters : List (List Char))
  deriving DecidableEq, Repr

/-- How a captured segment is percent-decoded; text without `%` is what it was. -/
structure Decoder where
  decode : Segment → Option (List Char)
  plain : ∀ segment, '%' ∉ segment → decode segment = some segment

def dispatch (D : Decoder) (method : Method) (path : List Char) : Outcome :=
  match findRoute router (cut path) with
  | none => .notFound
  | some (r, found) =>
    match r.methods.lookup method with
    | none => .methodNotAllowed
    | some handler =>
      match found.mapM D.decode with
      | none => .undecodable
      | some parameters => .handled handler parameters

/-! ## Routes that match -/

theorem captures_literal {text segment : Segment} {pieces : List Piece} {segments found : List Segment}
    (h : captures (.literal text :: pieces) (segment :: segments) = some found) :
    segment = text ∧ captures pieces segments = some found := by
  unfold captures at h
  split at h
  · exact ⟨‹_›, h⟩
  · cases h

theorem captures_same (text : Segment) (pieces : List Piece) (segments : List Segment) :
    captures (.literal text :: pieces) (text :: segments) = captures pieces segments := if_pos rfl

theorem captures_filled {segment : Segment} (h : segment ≠ []) (name : Segment)
    (pieces : List Piece) (segments : List Segment) :
    captures (.parameter name :: pieces) (segment :: segments) =
      (captures pieces segments).map (segment :: ·) := if_neg fun hempty => h hempty.1

theorem captures_parameter {name segment : Segment} {pieces : List Piece}
    {segments found : List Segment}
    (h : captures (.parameter name :: pieces) (segment :: segments) = some found) :
    ¬ (segment = [] ∧ segments = []) ∧
      ∃ rest, captures pieces segments = some rest ∧ found = segment :: rest := by
  unfold captures at h
  split at h
  · cases h
  · obtain ⟨rest, hrest, rfl⟩ := Option.map_eq_some_iff.mp h
    exact ⟨‹_›, rest, hrest, rfl⟩

/-- A path that matches has a segment for each piece, and ends in an empty one for an empty literal
    only. -/
theorem length_of_captures {pieces : List Piece} {segments found : List Segment}
    (h : captures pieces segments = some found) :
    segments.length = pieces.length ∧
      (pieces.getLast? ≠ some (.literal []) → segments.getLast? ≠ some []) := by
  induction pieces generalizing segments found with
  | nil =>
    cases segments with
    | nil => exact ⟨rfl, fun _ h => (by cases h)⟩
    | cons => cases h
  | cons piece pieces ih =>
    cases segments with
    | nil => cases piece <;> cases h
    | cons segment segments =>
      have htail : ∃ rest, captures pieces segments = some rest ∧
          (piece ≠ .literal [] → segments = [] → segment ≠ []) := by
        cases piece with
        | literal text =>
          obtain ⟨rfl, hrest⟩ := captures_literal h
          exact ⟨found, hrest, fun hne _ hempty => hne (by rw [hempty])⟩
        | parameter name =>
          obtain ⟨hne, rest, hrest, -⟩ := captures_parameter h
          exact ⟨rest, hrest, fun _ hnil hempty => hne ⟨hempty, hnil⟩⟩
      obtain ⟨rest, hrest, hsegment⟩ := htail
      obtain ⟨hlength, hlast⟩ := ih hrest
      refine ⟨by rw [List.length_cons, List.length_cons, hlength], fun hnone => ?_⟩
      cases segments with
      | nil =>
        obtain rfl : pieces = [] := List.length_eq_zero_iff.mp hlength.symm
        rw [List.getLast?_singleton] at hnone ⊢
        exact fun h => hsegment (fun heq => hnone (by rw [heq])) rfl (Option.some.inj h)
      | cons next segments =>
        obtain ⟨other, pieces, rfl⟩ := List.exists_cons_of_length_eq_add_one hlength.symm
        rw [List.getLast?_cons_cons] at hnone ⊢
        exact hlast hnone

theorem overlap_of_captures {pieces others : List Piece} {segments found known : List Segment}
    (h : captures pieces segments = some found) (k : captures others segments = some known) :
    overlap pieces others = true := by
  induction pieces generalizing others segments found known with
  | nil =>
    cases segments with
    | cons => cases h
    | nil =>
      cases others with
      | nil => rfl
      | cons other others => cases other <;> cases k
  | cons piece pieces ih =>
    cases segments with
    | nil => cases piece <;> cases h
    | cons segment segments =>
      cases others with
      | nil => cases k
      | cons other others =>
        cases piece with
        | literal text =>
          obtain ⟨rfl, hrest⟩ := captures_literal h
          cases other with
          | literal text =>
            obtain ⟨rfl, hother⟩ := captures_literal k
            simp only [overlap, decide_true, Bool.true_and]
            exact ih hrest hother
          | parameter name =>
            obtain ⟨-, rest, hother, -⟩ := captures_parameter k
            exact ih hrest hother
        | parameter name =>
          obtain ⟨-, rest, hrest, -⟩ := captures_parameter h
          cases other with
          | literal text => exact ih hrest (captures_literal k).2
          | parameter other =>
            obtain ⟨-, rest, hother, -⟩ := captures_parameter k
            exact ih hrest hother

theorem mem_foldl_better {found : List (Route × List Segment)} {best : Option (Route × List Segment)}
    {r : Route × List Segment} (h : found.foldl better best = some r) :
    r ∈ found ∨ best = some r := by
  induction found generalizing best with
  | nil => exact Or.inr h
  | cons first found ih =>
    rw [List.foldl_cons] at h
    rcases ih h with hmem | hbest
    · exact Or.inl (List.mem_cons_of_mem _ hmem)
    · unfold better at hbest
      split at hbest
      · rw [Option.some.injEq] at hbest
        exact Or.inl (hbest ▸ List.mem_cons_self)
      · split at hbest
        · rw [Option.some.injEq] at hbest
          exact Or.inl (hbest ▸ List.mem_cons_self)
        · exact Or.inr hbest

theorem findRoute_matches {routes : List Route} {segments : List Segment}
    {r : Route} {found : List Segment} (h : findRoute routes segments = some (r, found)) :
    r ∈ routes ∧ captures r.pieces segments = some found := by
  rcases mem_foldl_better h with hmem | hnone
  · obtain ⟨other, hother, hmatch⟩ := List.mem_filterMap.mp hmem
    obtain ⟨_, hfound, heq⟩ := Option.map_eq_some_iff.mp hmatch
    obtain ⟨rfl, rfl⟩ := Prod.mk.inj heq
    exact ⟨hother, hfound⟩
  · cases hnone

theorem foldl_better_of_forall_eq {found : List (Route × List Segment)} {r : Route × List Segment}
    (h : ∀ other ∈ found, other = r) : found.foldl better (some r) = some r := by
  induction found with
  | nil => rfl
  | cons first found ih =>
    have hbetter : better (some r) first = some r := by
      rw [h first List.mem_cons_self, better, ite_self]
    rw [List.foldl_cons, hbetter, ih fun other hother => h other (List.mem_cons_of_mem _ hother)]

theorem overlap_comm (pieces others : List Piece) : overlap pieces others = overlap others pieces := by
  induction pieces generalizing others with
  | nil =>
    cases others with
    | nil => rfl
    | cons other others => cases other <;> rfl
  | cons piece pieces ih =>
    cases others with
    | nil => cases piece <;> rfl
    | cons other others =>
      cases piece <;> cases other
      case literal.literal text other =>
        simp only [overlap, ih others]
        rw [decide_eq_decide.mpr eq_comm]
      all_goals exact ih others

theorem pieces_ofList (cs : List Char) (methods : List (Method × Handler)) :
    (⟨String.ofList cs, methods⟩ : Route).pieces = ((cs.drop 1).splitOnP (· = '/')).map piece := by
  unfold Route.pieces cut
  rw [String.toList_ofList]

/-- No path matches two routes of the server. -/
theorem router_apart : router.Pairwise fun r other => overlap r.pieces other.pieces = false := by
  refine (List.pairwise_map (R := fun p q => overlap p q = false) (f := Route.pieces)).mp ?_
  unfold router
  simp only [List.map_cons, List.map_nil]
  repeat rw [pieces_ofList]
  decide

theorem eq_of_overlap {r other : Route} (hr : r ∈ router) (hother : other ∈ router)
    (h : overlap r.pieces other.pieces = true) : other = r := by
  have hsymm : Std.Symm fun r other : Route => overlap r.pieces other.pieces = false :=
    ⟨fun a b hab => by rw [overlap_comm]; exact hab⟩
  by_contra hne
  have hapart := router_apart.forall hr hother fun heq => hne heq.symm
  rw [h] at hapart
  cases hapart

/-- A route is found by every path it matches. -/
theorem findRoute_of_mem {segments found : List Segment} {r : Route} (hmem : r ∈ router)
    (hmatch : captures r.pieces segments = some found) :
    findRoute router segments = some (r, found) := by
  have hall : ∀ other ∈ router.filterMap fun r => (captures r.pieces segments).map (r, ·),
      other = (r, found) := by
    intro other hother
    obtain ⟨route, hroute, hfound⟩ := List.mem_filterMap.mp hother
    obtain ⟨known, hknown, rfl⟩ := Option.map_eq_some_iff.mp hfound
    obtain rfl := eq_of_overlap hmem hroute (overlap_of_captures hmatch hknown)
    rw [hmatch, Option.some.injEq] at hknown
    rw [hknown]
  have hfound : (r, found) ∈ router.filterMap fun r => (captures r.pieces segments).map (r, ·) :=
    List.mem_filterMap.mpr ⟨r, hmem, by rw [hmatch]; rfl⟩
  unfold findRoute
  cases hlist : router.filterMap fun r => (captures r.pieces segments).map (r, ·) with
  | nil =>
    rw [hlist] at hfound
    exact absurd hfound List.not_mem_nil
  | cons first rest =>
    rw [hlist] at hall
    rw [List.foldl_cons, hall first List.mem_cons_self]
    exact foldl_better_of_forall_eq fun other hother => hall other (List.mem_cons_of_mem _ hother)

theorem dispatch_of_findRoute {D : Decoder} {method : Method} {path : List Char} {r : Route}
    {handler : Handler} {found : List Segment} (hfind : findRoute router (cut path) = some (r, found))
    (hmethod : r.methods.lookup method = some handler) (hplain : ∀ segment ∈ found, '%' ∉ segment) :
    dispatch D method path = .handled handler found := by
  have hdecoded : ∀ found : List Segment, (∀ segment ∈ found, '%' ∉ segment) →
      found.mapM D.decode = some found := by
    intro found hplain
    induction found with
    | nil => rfl
    | cons segment found ih =>
      rw [List.mapM_cons, D.plain segment (hplain segment List.mem_cons_self),
        ih fun s hs => hplain s (List.mem_cons_of_mem _ hs)]
      rfl
  unfold dispatch
  simp only [hfind, hmethod, hdecoded found hplain]

/-- A handler is reached along a route of the list. -/
theorem reached_of_dispatch {D : Decoder} {method : Method} {path : List Char} {handler : Handler}
    {parameters : List (List Char)} (h : dispatch D method path = .handled handler parameters) :
    ∃ r ∈ router, ∃ found, r.methods.lookup method = some handler ∧
      captures r.pieces (cut path) = some found := by
  unfold dispatch at h
  split at h
  · cases h
  · rename_i r found hfind
    split at h
    · cases h
    · rename_i other hother
      split at h
      · cases h
      · cases h
        obtain ⟨hmem, hmatch⟩ := findRoute_matches hfind
        exact ⟨r, hmem, found, hother, hmatch⟩

end Nod.Server.Routes
