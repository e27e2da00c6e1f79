import Nod.Client.State

/-
  What the visible list is for. `inbox` lists the held requests of the selected channel: every
  pending one, newest first, then the newest handled ones up to the display limit. The sorted
  and counted filter of the source computes exactly that from a map keyed by id
  (`visibleRequests_eq_inbox`).
-/

namespace Nod.Client

open Std Lib Nod.Proto

/-! ## The display order -/

def newerFirst (lhs rhs : Request) : Ordering :=
  (compare rhs.createdAt.key lhs.createdAt.key).then (compare rhs.id lhs.id)

instance : TransCmp newerFirst :=
  inferInstanceAs (TransCmp (compareLex
    (fun lhs rhs => compareOn (fun r : Request => r.createdAt.key) rhs lhs)
    (fun lhs rhs => compareOn (fun r : Request => r.id) rhs lhs)))

instance : TransCmp displayOrder :=
  inferInstanceAs (TransCmp (compareLex (compareOn fun r : Request => requestStatusRank r.status)
    newerFirst))

theorem requestStatusRank_eq (r : Request) :
    requestStatusRank r.status = if isPending r then 0 else 1 := by
  unfold isPending
  cases r.status <;> rfl

theorem displayOrder_of_isPending_eq {a b : Request} (h : isPending a = isPending b) :
    displayOrder a b = newerFirst a b := by
  have hrank : compare (requestStatusRank a.status) (requestStatusRank b.status) = .eq := by
    rw [requestStatusRank_eq, requestStatusRank_eq, h]
    exact ReflCmp.compare_self
  unfold displayOrder
  rw [hrank]
  rfl

theorem displayedBefore_handled_pending {a b : Request} (ha : isPending a = false)
    (hb : isPending b = true) : displayedBefore a b = false := by
  unfold displayedBefore displayOrder
  rw [requestStatusRank_eq, requestStatusRank_eq, ha, hb]
  rfl

theorem displayedBefore_trans (a b c : Request) (hab : displayedBefore a b = true)
    (hbc : displayedBefore b c = true) : displayedBefore a c = true :=
  @TransCmp.isLE_trans _ displayOrder _ _ _ _ hab hbc

theorem displayedBefore_total (a b : Request) :
    (displayedBefore a b || displayedBefore b a) = true := by
  have hswap : displayOrder b a = (displayOrder a b).swap := OrientedCmp.eq_swap
  unfold displayedBefore
  rw [hswap]
  cases displayOrder a b <;> rfl

/-- Only requests of one id are equivalent in the display order. -/
theorem id_eq_of_displayedBefore {a b : Request} (hab : displayedBefore a b = true)
    (hba : displayedBefore b a = true) : a.id = b.id := by
  have heq : displayOrder a b = .eq := 
    @OrientedCmp.isLE_antisymm _ displayOrder _ _ _ hab hba
  unfold displayOrder at heq
  rw [Ordering.then_eq_eq, Ordering.then_eq_eq] at heq
  exact (LawfulEqCmp.eq_of_compare heq.2.2).symm

/-! ## The inbox -/

def newestFirst (requests : List Request) : List Request :=
  requests.mergeSort fun a b => (newerFirst a b).isLE

def shownIn (selected : Option String) (r : Request) : Bool :=
  selected.all (r.channelId == ·)

def inbox (m : ExtTreeMap String Request) (selected : Option String) : List Request :=
  let shown := (OrdMap.values m).filter (shownIn selected)
  newestFirst (shown.filter isPending) ++
    (newestFirst (shown.filter fun r => !isPending r)).take handledRequestDisplayLimit

/-- Every entry is under its own id. -/
def Keyed (m : ExtTreeMap String Request) : Prop :=
  ∀ (id : String) r, m[id]? = some r → r.id = id

theorem Keyed.eq_of_id {m : ExtTreeMap String Request} (h : Keyed m) {a b : Request}
    (ha : a ∈ OrdMap.values m) (hb : b ∈ OrdMap.values m) (hid : a.id = b.id) : a = b := by
  obtain ⟨ka, hka⟩ := OrdMap.mem_values.mp ha
  obtain ⟨kb, hkb⟩ := OrdMap.mem_values.mp hb
  have hk : ka = kb := by rw [← h ka a hka, ← h kb b hkb, hid]
  subst hk
  rw [hka] at hkb
  exact Option.some.inj hkb

theorem Keyed.nodup_ids {m : ExtTreeMap String Request} (h : Keyed m) :
    ((OrdMap.values m).map Request.id).Nodup := by
  have hids : (OrdMap.values m).map Request.id = m.keys := by
    rw [← ExtTreeMap.map_fst_toList_eq_keys]
    unfold OrdMap.values
    rw [List.map_map]
    refine List.map_congr_left fun p hp => ?_
    exact h p.1 p.2 (ExtTreeMap.mem_toList_iff_getElem?_eq_some.mp hp)
  rw [hids]
  exact ExtTreeMap.nodup_keys

theorem pairwise_newestFirst (l : List Request) :
    (newestFirst l).Pairwise fun a b => (newerFirst a b).isLE = true := by
  have htrans : ∀ a b c, (newerFirst a b).isLE = true → (newerFirst b c).isLE = true →
      (newerFirst a c).isLE = true := fun _ _ _ => TransCmp.isLE_trans
  have htotal : ∀ a b, ((newerFirst a b).isLE || (newerFirst b a).isLE) = true := by
    intro a b
    have hswap : newerFirst b a = (newerFirst a b).swap := OrientedCmp.eq_swap
    rw [hswap]
    cases newerFirst a b <;> rfl
  exact List.pairwise_mergeSort htrans htotal l

/-- Sorting by the display order is sorting newest first where all are pending or none is. -/
theorem mergeSort_displayedBefore {l : List Request} {b : Bool}
    (hdistinct : ∀ r ∈ l, ∀ r' ∈ l, r.id = r'.id → r = r') (hl : ∀ r ∈ l, isPending r = b) :
    l.mergeSort displayedBefore = newestFirst l := by
  have hperm : (l.mergeSort displayedBefore).Perm (newestFirst l) :=
    (List.mergeSort_perm l _).trans (List.mergeSort_perm l _).symm
  have hmem : ∀ r ∈ newestFirst l, r ∈ l := fun r hr => List.mem_mergeSort.mp hr
  have hsame : ∀ r ∈ l, ∀ r' ∈ l, displayedBefore r r' = (newerFirst r r').isLE := by
    intro r hr r' hr'
    unfold displayedBefore
    rw [displayOrder_of_isPending_eq ((hl r hr).trans (hl r' hr').symm)]
  have hsorted : (newestFirst l).Pairwise fun a b => displayedBefore a b = true := by
    refine (pairwise_newestFirst l).imp_of_mem fun ha hb hab => ?_
    rw [hsame _ (hmem _ ha) _ (hmem _ hb)]
    exact hab
  refine List.Perm.eq_of_pairwise ?_
    (List.pairwise_mergeSort displayedBefore_trans displayedBefore_total l) hsorted hperm
  intro a b ha hb hab hba
  exact hdistinct a (List.mem_mergeSort.mp ha) b (hmem b hb) (id_eq_of_displayedBefore hab hba)

theorem visibleRequests_eq {l : List Request}
    (hdistinct : ∀ r ∈ l, ∀ r' ∈ l, r.id = r'.id → r = r') :
    visibleRequests l =
      newestFirst (l.filter isPending) ++
        (newestFirst (l.filter fun r => !isPending r)).take handledRequestDisplayLimit := by
  have hsub : ∀ (q : Request → Bool), ∀ r ∈ l.filter q, ∀ r' ∈ l.filter q,
      r.id = r'.id → r = r' := fun q r hr r' hr' =>
    hdistinct r (List.mem_filter.mp hr).1 r' (List.mem_filter.mp hr').1
  unfold visibleRequests
  rw [Shortlist.keepWithin_mergeSort displayedBefore_trans displayedBefore_total
      (fun a ha b hb hab hba => hdistinct a ha b hb (id_eq_of_displayedBefore hab hba))
      (fun a b => displayedBefore_handled_pending),
    mergeSort_displayedBefore (hsub isPending) fun r hr => (List.mem_filter.mp hr).2,
    mergeSort_displayedBefore (b := false) (hsub _) fun r hr => by
      simpa using (List.mem_filter.mp hr).2]

theorem visibleRequestsForSelectedChannel_eq {s : StateReducer} {m : ExtTreeMap String Request}
    (h : Keyed m) :
    s.visibleRequestsForSelectedChannel (OrdMap.values m) = inbox m s.state.selectedChannelId := by
  have hdistinct : ∀ (q : Request → Bool), ∀ r ∈ (OrdMap.values m).filter q,
      ∀ r' ∈ (OrdMap.values m).filter q, r.id = r'.id → r = r' := fun q r hr r' hr' =>
    h.eq_of_id (List.mem_filter.mp hr).1 (List.mem_filter.mp hr').1
  unfold StateReducer.visibleRequestsForSelectedChannel inbox
  cases s.state.selectedChannelId with
  | none =>
    have hall : (OrdMap.values m).filter (shownIn none) = OrdMap.values m :=
      List.filter_eq_self.mpr fun _ _ => rfl
    dsimp only
    rw [hall]
    exact visibleRequests_eq fun r hr r' hr' => h.eq_of_id hr hr'
  | some channelId => exact visibleRequests_eq (hdistinct _)

/-! ## What the inbox holds -/

theorem mem_newestFirst {l : List Request} {r : Request} : r ∈ newestFirst l ↔ r ∈ l :=
  List.mem_mergeSort

/-- No held request of the selected channel that is pending is left out. -/
theorem mem_inbox_of_pending {m : ExtTreeMap String Request} {selected : Option String}
    {r : Request} (hr : r ∈ OrdMap.values m) (hs : shownIn selected r = true)
    (hp : isPending r = true) : r ∈ inbox m selected :=
  List.mem_append_left _ (mem_newestFirst.mpr
    (List.mem_filter.mpr ⟨List.mem_filter.mpr ⟨hr, hs⟩, hp⟩))

theorem of_mem_inbox {m : ExtTreeMap String Request} {selected : Option String} {r : Request}
    (h : r ∈ inbox m selected) : r ∈ OrdMap.values m ∧ shownIn selected r = true := by
  have hshown : ∀ {q : Request → Bool},
      r ∈ newestFirst (((OrdMap.values m).filter (shownIn selected)).filter q) →
        r ∈ OrdMap.values m ∧ shownIn selected r = true := fun hq =>
    List.mem_filter.mp (List.mem_filter.mp (mem_newestFirst.mp hq)).1
  rcases List.mem_append.mp h with hp | hh
  · exact hshown hp
  · exact hshown (List.mem_of_mem_take hh)

theorem countP_handled_inbox (m : ExtTreeMap String Request) (selected : Option String) :
    (inbox m selected).countP (fun r => !isPending r) ≤ handledRequestDisplayLimit := by
  unfold inbox
  have hpending : ((newestFirst (((OrdMap.values m).filter (shownIn selected)).filter
      isPending)).countP fun r => !isPending r) = 0 := by
    rw [List.countP_eq_zero]
    intro r hr
    simp only [(List.mem_filter.mp (mem_newestFirst.mp hr)).2, Bool.not_true, Bool.false_eq_true,
      not_false_eq_true]
  dsimp only
  rw [List.countP_append, hpending, Nat.zero_add]
  exact List.countP_le_length.trans (List.length_take_le _ _)

theorem nodup_inbox_ids {m : ExtTreeMap String Request} (h : Keyed m)
    (selected : Option String) : ((inbox m selected).map Request.id).Nodup := by
  have hshown : (((OrdMap.values m).filter (shownIn selected)).map Request.id).Nodup :=
    h.nodup_ids.sublist (List.filter_sublist.map _)
  have hsorted : ∀ q : Request → Bool,
      ((newestFirst (((OrdMap.values m).filter (shownIn selected)).filter q)).map Request.id).Nodup :=
    fun q => ((List.mergeSort_perm _ _).map _).nodup_iff.mpr
      (hshown.sublist (List.filter_sublist.map _))
  unfold inbox
  dsimp only
  rw [List.map_append, List.nodup_append]
  refine ⟨hsorted _, (hsorted _).sublist ((List.take_sublist _ _).map _), ?_⟩
  rintro id hp id' hh rfl
  obtain ⟨r, hr, rfl⟩ := List.mem_map.mp hp
  obtain ⟨r', hr', hid⟩ := List.mem_map.mp hh
  have hr := List.mem_filter.mp (mem_newestFirst.mp hr)
  have hr' := List.mem_filter.mp (mem_newestFirst.mp (List.mem_of_mem_take hr'))
  have heq : r' = r := h.eq_of_id (List.mem_filter.mp hr'.1).1 (List.mem_filter.mp hr.1).1 hid
  subst heq
  simp [hr.2] at hr'

end Nod.Client
