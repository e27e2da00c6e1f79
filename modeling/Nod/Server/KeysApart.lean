import Nod.Lib.Alike
import Nod.Server.CreateCall

/-
  Creates do not see the idempotency keys of other slots. Apart from `findIdempotency` and
  `bindIdempotency`, which use the create's own slot, its statements leave the keys alone.
  Proved: `alike_createRequest`, a create does the same on two databases whose keys differ in other
  slots.
-/

namespace Nod.Server

open Lib Nod.Proto

variable {P : Packages}

/-- Databases that differ in the keys of other slots only. -/
def KeysApart (slot : Option (String × String × String)) (s t : Db) : Prop :=
  ∃ keys, t = { s with idempotency := keys } ∧
    ∀ k ∈ slot, keys.get? k = s.idempotency.get? k

section

variable {slot : Option (String × String × String)}

/-- A statement that neither reads nor writes the keys. -/
def Keyless {β : Type} (f : Db → Option (β × Db)) : Prop :=
  ∀ (s : Db) (keys : Table IdempotencyRow.index), f { s with idempotency := keys } =
    (f s).map fun r => (r.1, { r.2 with idempotency := keys })

theorem Keyless.keeps {β : Type} {f : Db → Option (β × Db)} (h : Keyless f) {s s' : Db} {b : β}
    (hf : f s = some (b, s')) : s'.idempotency = s.idempotency := by
  have hsame := h s s.idempotency
  rw [hf, Option.map_some] at hsame
  have hstore := (Prod.mk.inj (Option.some.inj hsame)).2
  have hkeys := congrArg Db.idempotency hstore
  exact hkeys

theorem Keyless.alike {β : Type} {f : Db → Option (β × Db)} (h : Keyless f) :
    Prog.AlikeOn (KeysApart slot) f := by
  rintro s t ⟨keys, rfl, hkeys⟩
  rw [h s keys]
  cases hf : f s with
  | none => exact .none
  | some r =>
    rw [Option.map_some]
    refine .some ⟨rfl, keys, rfl, ?_⟩
    have hkept : r.2.idempotency = s.idempotency := h.keeps hf
    rw [hkept]
    exact hkeys

theorem keyless_insertRequest (row : RequestRow) : Keyless (insertRequest row) := by
  rintro ⟨⟩ keys
  unfold insertRequest pendingByDedupeKey
  dsimp only
  split
  · rfl
  · rw [Option.map_map]
    rfl

theorem keyless_setAnswerField (id : String) (field : Option AnswerField) :
    Keyless (setAnswerField id field) := fun _ _ => rfl

theorem keyless_insertRecipient (row : RecipientRow) : Keyless (insertRecipient row) := by
  rintro ⟨⟩ keys
  unfold insertRecipient
  dsimp only
  split
  · rfl
  · rw [Option.map_map]
    rfl

theorem keyless_insertOption (row : OptionRow) : Keyless (insertOption row) := by
  rintro ⟨⟩ keys
  unfold insertOption
  dsimp only
  split
  · rfl
  · rw [Option.map_map]
    rfl

theorem keyless_queuePushes (id now : String) : Keyless (queuePushes id now) := by
  rintro ⟨⟩ keys
  unfold queuePushes
  dsimp only
  rw [Option.map_map]
  rfl

theorem keyless_bumpRevision (id : String) : Keyless (bumpRevision id) := by
  rintro ⟨⟩ keys
  unfold bumpRevision
  dsimp only
  rw [Option.map_map]
  rfl

theorem keyless_insertEvent (event : EventRow) : Keyless (insertEvent event) := by
  rintro ⟨⟩ keys
  unfold insertEvent
  dsimp only
  split
  · rfl
  · rw [Option.map_map]
    rfl

theorem keyless_insertCallback (callback : CallbackRow) : Keyless (insertCallback callback) := by
  rintro ⟨⟩ keys
  unfold insertCallback
  dsimp only
  split
  · rfl
  · rw [Option.map_map]
    rfl

/-- A query that does not read the keys. -/
theorem alike_query {ε α : Type} {f : Db → α}
    (hf : ∀ s keys, f { s with idempotency := keys } = f s) :
    Prog.Alike (KeysApart slot) (Prog.query f : Prog Db ε α) := by
  apply Prog.alike_query
  rintro s t ⟨keys, rfl, -⟩
  exact (hf s keys).symm

theorem alike_getRequestOn (id : String) : Prog.Alike (KeysApart slot) (getRequestOn P id) := by
  refine Prog.alike_bind (alike_query fun _ _ => rfl) fun row => ?_
  refine Prog.alike_bind (Prog.alike_lift _) fun row => ?_
  refine Prog.alike_bind ?_ fun requests => Prog.alike_lift _
  refine Prog.alike_bind (alike_query fun _ _ => rfl) fun recipients => ?_
  refine Prog.alike_bind (alike_query fun _ _ => rfl) fun decisions => ?_
  exact Prog.alike_bind (alike_query fun _ _ => rfl) fun options => Prog.alike_lift _

theorem alike_resolveRequested (recipients requested : List String) :
    Prog.Alike (KeysApart slot) (resolveRequested recipients requested) := by
  induction requested generalizing recipients with
  | nil => exact Prog.alike_pure _
  | cons userId requested ih =>
    refine Prog.alike_bind (Prog.alike_lift _) fun _ => ?_
    refine Prog.alike_bind (alike_query fun _ _ => rfl) fun found => ?_
    exact Prog.alike_bind (Prog.alike_lift _) fun _ => ih _

theorem alike_resolveRequestRecipients (channelId : String) (requested : Option (List String)) :
    Prog.Alike (KeysApart slot) (resolveRequestRecipients channelId requested) := by
  cases requested with
  | none => exact alike_query fun _ _ => rfl
  | some requested =>
    exact Prog.alike_bind (Prog.alike_lift _) fun _ => alike_resolveRequested _ _

theorem alike_findPendingRequestByDedupeKey (channelId : String) (key : Option String) :
    Prog.Alike (KeysApart slot) (findPendingRequestByDedupeKey P channelId key) := by
  cases key with
  | none => exact Prog.alike_pure _
  | some key =>
    refine Prog.alike_bind (alike_query fun _ _ => rfl) fun found => ?_
    cases found with
    | none => exact Prog.alike_pure _
    | some id => exact Prog.alike_bind (alike_getRequestOn id) fun _ => Prog.alike_pure _

theorem alike_originCheck (origin : Option Origin) (id : String) (e : ApiError) :
    Prog.Alike (KeysApart slot) (do
      let bound ← originOn id
      Prog.lift (refuseIf (bound ≠ origin) e)) :=
  Prog.alike_bind (alike_query fun _ _ => rfl) fun _ => Prog.alike_lift _

/-- A binding reads and writes its own slot only. -/
theorem alike_bindIdempotency (binding : IdempotencyBinding) (requestId : String) :
    Prog.Alike (KeysApart (binding.key.map fun key => (binding.scope, binding.channelId, key)))
      (bindIdempotency binding requestId) := by
  unfold bindIdempotency
  cases binding.key with
  | none => exact Prog.alike_pure _
  | some key =>
    refine Prog.alike_onTx ?_
    rintro s t ⟨keys, rfl, hkeys⟩
    have hslot := hkeys (binding.scope, binding.channelId, key) rfl
    unfold insertIdempotency
    dsimp only
    split
    · exact .none
    · cases hfree : s.idempotency.get? (binding.scope, binding.channelId, key) with
      | some row =>
        have htaken : ∀ table : Table IdempotencyRow.index,
            table.get? (binding.scope, binding.channelId, key) = some row →
              table.insert? ⟨binding.scope, binding.channelId, key, binding.fingerprint,
                requestId⟩ = none := by
          intro table hrow
          refine Table.insert?_eq_none ?_
          change table.get? (binding.scope, binding.channelId, key) ≠ none
          rw [hrow]
          exact Option.some_ne_none row
        rw [htaken _ hfree, htaken _ (hslot.trans hfree)]
        exact .none
      | none =>
        have hother := hslot.trans hfree
        obtain ⟨table, htable⟩ := Table.exists_insert? (t := s.idempotency) (r := ⟨binding.scope,
          binding.channelId, key, binding.fingerprint, requestId⟩) hfree
        obtain ⟨table', htable'⟩ := Table.exists_insert? (t := keys) (r := ⟨binding.scope,
          binding.channelId, key, binding.fingerprint, requestId⟩) hother
        rw [htable, htable']
        refine .some ⟨rfl, table', rfl, fun k hk => ?_⟩
        rw [Table.get?_insert? htable', Table.get?_insert? htable, hkeys k hk]

theorem alike_joinPending (req : CreateDecisionRequest) (origin : Option Origin)
    (binding : IdempotencyBinding) (recipients : List String) (request : DecisionRequest) :
    Prog.Alike (KeysApart (binding.key.map fun key => (binding.scope, binding.channelId, key)))
      (joinPending req origin binding recipients request) := by
  refine Prog.alike_bind ?_ fun _ => ?_
  · unfold checkValueJoin
    split
    · exact Prog.alike_bind (Prog.alike_lift _) fun _ => alike_originCheck _ _ _
    · exact Prog.alike_pure _
  refine Prog.alike_bind ?_ fun _ => ?_
  · unfold checkOriginJoin
    split
    · exact alike_originCheck _ _ _
    · exact Prog.alike_pure _
  exact Prog.alike_bind (alike_bindIdempotency _ _) fun _ => trivial

theorem alike_insertRecipients (id : String) (recipients : List String) :
    Prog.Alike (KeysApart slot) (insertRecipients id recipients) := by
  induction recipients with
  | nil => exact Prog.alike_pure _
  | cons userId recipients ih =>
    exact Prog.alike_bind (Prog.alike_onTx (keyless_insertRecipient _).alike) fun _ => ih

theorem alike_insertOptions (id : String) (options : List RequestOption) :
    Prog.Alike (KeysApart slot) (insertOptions id options) := by
  induction options with
  | nil => exact Prog.alike_pure _
  | cons option options ih =>
    exact Prog.alike_bind (Prog.alike_onTx (keyless_insertOption _).alike) fun _ => ih

theorem alike_insertOrigin (id : String) (origin : Option Origin) :
    Prog.Alike (KeysApart slot) (insertOrigin id origin) := by
  cases origin with
  | none => exact Prog.alike_pure _
  | some origin =>
    refine Prog.alike_onTx (Keyless.alike ?_)
    rintro ⟨⟩ keys
    dsimp only
    split
    · rfl
    · rw [Option.map_map]
      rfl

theorem alike_appendLifecycleOn (eventId now : String) (request : DecisionRequest) (kind : String)
    (decision : Option Decision) :
    Prog.Alike (KeysApart slot) (appendLifecycleOn eventId now request kind decision) := by
  refine Prog.alike_bind (Prog.alike_onTx (keyless_bumpRevision _).alike) fun revision => ?_
  refine Prog.alike_bind (Prog.alike_onTx (Keyless.alike ?_)) fun creator => ?_
  · intro s keys
    dsimp only
    rw [Option.map_map]
    rfl
  refine Prog.alike_bind (alike_query fun _ _ => rfl) fun origin => ?_
  refine Prog.alike_bind (Prog.alike_onTx (Keyless.alike ?_)) fun node => ?_
  · intro s keys
    dsimp only
    rw [Option.map_map]
    rfl
  refine Prog.alike_bind (Prog.alike_onTx (keyless_insertEvent _).alike) fun _ => ?_
  split
  · exact Prog.alike_onTx (keyless_insertCallback _).alike
  · exact Prog.alike_pure _

theorem alike_insertNew (env : Env) (req : CreateDecisionRequest)
    (metadata : CreateRequestMetadata) (binding : IdempotencyBinding) (recipients : List String) :
    Prog.Alike (KeysApart (binding.key.map fun key => (binding.scope, binding.channelId, key)))
      (insertNew P env req metadata binding recipients) := by
  refine Prog.alike_bind (Prog.alike_onTx (keyless_insertRequest _).alike) fun _ => ?_
  refine Prog.alike_bind (Prog.alike_onTx (keyless_setAnswerField _ _).alike) fun _ => ?_
  refine Prog.alike_bind (alike_insertRecipients _ _) fun _ => ?_
  refine Prog.alike_bind (alike_insertOptions _ _) fun _ => ?_
  refine Prog.alike_bind (Prog.alike_onTx (keyless_queuePushes _ _).alike) fun _ => ?_
  refine Prog.alike_bind (alike_bindIdempotency _ _) fun _ => ?_
  refine Prog.alike_bind (alike_getRequestOn _) fun request => ?_
  refine Prog.alike_bind (alike_insertOrigin _ _) fun _ => ?_
  refine Prog.alike_bind (alike_appendLifecycleOn _ _ _ _ _) fun _ => ?_
  trivial

theorem alike_createRequest (env : Env) (req : CreateDecisionRequest)
    (metadata : CreateRequestMetadata) :
    Prog.Alike (KeysApart (metadata.key.map fun key => (metadata.scope, req.channelId, key)))
      (createRequest P env req metadata) := by
  refine Prog.alike_bind (Prog.alike_lift _) fun _ => ?_
  refine Prog.alike_bind (Prog.alike_lift _) fun _ => ?_
  refine Prog.alike_bind (Prog.alike_lift _) fun _ => ?_
  refine Prog.alike_bind (Prog.alike_lift _) fun fingerprint => ?_
  refine Prog.alike_bind Prog.alike_beginTx fun _ => ?_
  refine Prog.alike_bind ?_ fun replay => ?_
  · change Prog.Alike _ (findIdempotency metadata.scope req.channelId metadata.key)
    cases metadata.key with
    | none => exact Prog.alike_pure _
    | some key =>
      apply Prog.alike_query
      rintro s t ⟨keys, rfl, hkeys⟩
      exact (hkeys (metadata.scope, req.channelId, key) rfl).symm
  · cases replay with
    | some row =>
      refine Prog.alike_bind (Prog.alike_lift _) fun _ => ?_
      exact Prog.alike_bind (alike_getRequestOn _) fun _ => trivial
    | none =>
      refine Prog.alike_bind (alike_query fun _ _ => rfl) fun channel => ?_
      refine Prog.alike_bind (Prog.alike_lift _) fun _ => ?_
      refine Prog.alike_bind (alike_resolveRequestRecipients _ _) fun recipients => ?_
      refine Prog.alike_bind (alike_findPendingRequestByDedupeKey _ _) fun pending => ?_
      cases pending with
      | some request =>
        exact alike_joinPending req metadata.origin (bindingOf req metadata fingerprint) recipients
          request
      | none =>
        exact alike_insertNew env req metadata (bindingOf req metadata fingerprint) recipients

end

end Nod.Server
