import LayeredConfig.Proofs.Paths

/-! The string leaves of a tree, and the trees that differ from it only at its
leaves. `leaves` lists the leaves in pre-order with their paths; in a tree whose
objects have each key once, these paths are pairwise apart. `Rewrites ok p v o`
says that the node `v` at `p` became `o` with each leaf turned into an outcome
that `ok` allows and every other node kept in kind, value, length and key order.
Looking up a leaf that was kept, and assigning at a leaf that is still there,
go through such a rewrite unchanged. -/

namespace LayeredConfig

open scoped List

namespace Value

mutual

/-- The string leaves below a node at a path, in pre-order, with their paths. -/
def leaves (p : KeyPath) : Value → List (KeyPath × String)
  | .str s => [(p, s)]
  | .arr items => itemLeaves p 0 items
  | .obj fields => fieldLeaves p fields
  | _ => []

def itemLeaves (p : KeyPath) (i : Nat) : List Value → List (KeyPath × String)
  | [] => []
  | v :: rest => leaves (p ++ [.index i]) v ++ itemLeaves p (i + 1) rest

def fieldLeaves (p : KeyPath) : List (String × Value) → List (KeyPath × String)
  | [] => []
  | (k, v) :: rest => leaves (p ++ [.key k]) v ++ fieldLeaves p rest

end

mutual

/-- `Rewrites ok p v o`: the node `v` at path `p` becomes the outcome `o`, each
string leaf `l` at a path `q` into an outcome allowed by `ok q l`, and every
other node into a node of its own kind: scalars stay, array items are rewritten
in place (an absent item leaves `null`), and object fields keep their order,
with the fields whose value became absent dropped. -/
inductive Rewrites (ok : KeyPath → String → Option Value → Prop) :
    KeyPath → Value → Option Value → Prop
  | leaf {p : KeyPath} {l : String} {o : Option Value} : ok p l o → Rewrites ok p (.str l) o
  | null {p : KeyPath} : Rewrites ok p .null (some .null)
  | bool {p : KeyPath} {b : Bool} : Rewrites ok p (.bool b) (some (.bool b))
  | num {p : KeyPath} {n : Number} : Rewrites ok p (.num n) (some (.num n))
  | arr {p : KeyPath} {items items' : List Value} :
      RewritesItems ok p 0 items items' → Rewrites ok p (.arr items) (some (.arr items'))
  | obj {p : KeyPath} {fields fields' : List (String × Value)} :
      RewritesFields ok p fields fields' → Rewrites ok p (.obj fields) (some (.obj fields'))

/-- Array items from an index on, rewritten in place. -/
inductive RewritesItems (ok : KeyPath → String → Option Value → Prop) :
    KeyPath → Nat → List Value → List Value → Prop
  | nil {p : KeyPath} {i : Nat} : RewritesItems ok p i [] []
  | cons {p : KeyPath} {i : Nat} {v : Value} {o : Option Value} {rest rest' : List Value} :
      Rewrites ok (p ++ [.index i]) v o → RewritesItems ok p (i + 1) rest rest' →
      RewritesItems ok p i (v :: rest) (o.getD .null :: rest')

/-- Object fields rewritten in order, those that became absent dropped. -/
inductive RewritesFields (ok : KeyPath → String → Option Value → Prop) :
    KeyPath → List (String × Value) → List (String × Value) → Prop
  | nil {p : KeyPath} : RewritesFields ok p [] []
  | keep {p : KeyPath} {k : String} {v w : Value} {rest rest' : List (String × Value)} :
      Rewrites ok (p ++ [.key k]) v (some w) → RewritesFields ok p rest rest' →
      RewritesFields ok p ((k, v) :: rest) ((k, w) :: rest')
  | drop {p : KeyPath} {k : String} {v : Value} {rest rest' : List (String × Value)} :
      Rewrites ok (p ++ [.key k]) v none → RewritesFields ok p rest rest' →
      RewritesFields ok p ((k, v) :: rest) rest'

end

/-! ### Where the leaves are -/

mutual

theorem get?_of_mem_leaves (p : KeyPath) (v : Value) (hv : v.NodupKeys) {q : KeyPath} {l : String}
    (h : (q, l) ∈ leaves p v) : ∃ r, q = p ++ r ∧ v.get? r = some (.str l) := by
  cases v with
  | str s =>
    simp only [leaves, List.mem_singleton, Prod.mk.injEq] at h
    obtain ⟨rfl, rfl⟩ := h
    exact ⟨[], by simp, rfl⟩
  | arr items =>
    obtain ⟨j, c, r, hc, rfl, hr⟩ := get?_of_mem_itemLeaves p 0 items hv h
    exact ⟨.index j :: r, by simp, by simp [get?_cons, hc, hr]⟩
  | obj fields =>
    obtain ⟨k, c, r, hc, rfl, hr⟩ := get?_of_mem_fieldLeaves p fields hv.2 h
    exact ⟨.key k :: r, by simp, by simp [get?_cons, Fields.get?_of_mem hv.1 hc, hr]⟩
  | null | bool _ | num _ => simp [leaves] at h

theorem get?_of_mem_itemLeaves (p : KeyPath) (i : Nat) (items : List Value)
    (hitems : ItemsNodupKeys items) {q : KeyPath} {l : String} (h : (q, l) ∈ itemLeaves p i items) :
    ∃ j c r, items[j]? = some c ∧ q = p ++ .index (i + j) :: r ∧ c.get? r = some (.str l) := by
  cases items with
  | nil => simp [itemLeaves] at h
  | cons v rest =>
    rcases List.mem_append.1 h with h | h
    · obtain ⟨r, rfl, hr⟩ := get?_of_mem_leaves (p ++ [.index i]) v hitems.1 h
      exact ⟨0, v, r, rfl, by simp, hr⟩
    · obtain ⟨j, c, r, hc, rfl, hr⟩ := get?_of_mem_itemLeaves p (i + 1) rest hitems.2 h
      exact ⟨j + 1, c, r, hc, by simp [Nat.add_assoc, Nat.add_comm 1 j], hr⟩

theorem get?_of_mem_fieldLeaves (p : KeyPath) (fields : List (String × Value))
    (hfields : FieldsNodupKeys fields) {q : KeyPath} {l : String}
    (h : (q, l) ∈ fieldLeaves p fields) :
    ∃ k c r, (k, c) ∈ fields ∧ q = p ++ .key k :: r ∧ c.get? r = some (.str l) := by
  cases fields with
  | nil => simp [fieldLeaves] at h
  | cons kv rest =>
    obtain ⟨k, v⟩ := kv
    rcases List.mem_append.1 h with h | h
    · obtain ⟨r, rfl, hr⟩ := get?_of_mem_leaves (p ++ [.key k]) v hfields.1 h
      exact ⟨k, v, r, List.mem_cons_self, by simp, hr⟩
    · obtain ⟨k', c, r, hc, rfl, hr⟩ := get?_of_mem_fieldLeaves p rest hfields.2 h
      exact ⟨k', c, r, List.mem_cons_of_mem _ hc, rfl, hr⟩

end

theorem leaves_subset_itemLeaves (p : KeyPath) {items : List Value} {i : Nat} {c : Value}
    (hc : items[i]? = some c) (j : Nat) : leaves (p ++ [.index (j + i)]) c ⊆ itemLeaves p j items := by
  induction items generalizing i j with
  | nil => simp at hc
  | cons v rest ih =>
    cases i with
    | zero =>
      cases hc
      exact List.subset_append_left _ _
    | succ i =>
      have h := ih (i := i) (by simpa using hc) (j + 1)
      rw [Nat.add_right_comm, Nat.add_assoc] at h
      exact List.Subset.trans h (List.subset_append_right _ _)

theorem leaves_subset_fieldLeaves (p : KeyPath) {fields : List (String × Value)} {k : String} {c : Value}
    (hc : (k, c) ∈ fields) : leaves (p ++ [.key k]) c ⊆ fieldLeaves p fields := by
  induction fields with
  | nil => simp at hc
  | cons kv rest ih =>
    rcases List.mem_cons.1 hc with rfl | hc
    · exact List.subset_append_left _ _
    · exact List.Subset.trans (ih hc) (List.subset_append_right _ _)

/-- A string at a path below a node is among the node's leaves, whatever keys
repeat. -/
theorem mem_leaves_of_get? {v : Value} {q : KeyPath} {l : String} (h : v.get? q = some (.str l))
    (p : KeyPath) : (p ++ q, l) ∈ leaves p v := by
  induction q generalizing v p with
  | nil =>
    cases h
    simp [leaves]
  | cons s q ih =>
    obtain ⟨c, hc, hq⟩ := Option.bind_eq_some_iff.1 h
    have hmem : (p ++ [s] ++ q, l) ∈ leaves (p ++ [s]) c := ih hq (p ++ [s])
    rw [List.append_assoc, List.singleton_append] at hmem
    cases v <;> cases s <;> simp only [child?, reduceCtorEq] at hc
    case obj.key fields k => exact leaves_subset_fieldLeaves p (Fields.mem_of_get? hc) hmem
    case arr.index items i => exact leaves_subset_itemLeaves p hc 0 (by simpa using hmem)

theorem apart_append_cons (p : KeyPath) {s t : Step} (hst : s ≠ t) (a b : KeyPath) :
    KeyPath.Apart (p ++ s :: a) (p ++ t :: b) := by
  induction p with
  | nil => exact KeyPath.apart_cons_cons.2 (Or.inl hst)
  | cons u p ih => exact KeyPath.apart_cons_cons.2 (Or.inr ih)

mutual

/-- The paths of distinct leaves are apart: a leaf has nothing below it, and
keys are not repeated. -/
theorem leaves_pairwise_apart (p : KeyPath) (v : Value) (hv : v.NodupKeys) :
    ((leaves p v).map Prod.fst).Pairwise KeyPath.Apart := by
  cases v with
  | str s => simp [leaves]
  | arr items => exact itemLeaves_pairwise_apart p 0 items hv
  | obj fields => exact fieldLeaves_pairwise_apart p fields hv.2 hv.1
  | null | bool _ | num _ => simp [leaves]

theorem itemLeaves_pairwise_apart (p : KeyPath) (i : Nat) (items : List Value)
    (hitems : ItemsNodupKeys items) :
    ((itemLeaves p i items).map Prod.fst).Pairwise KeyPath.Apart := by
  cases items with
  | nil => simp [itemLeaves]
  | cons v rest =>
    rw [itemLeaves, List.map_append, List.pairwise_append]
    refine ⟨leaves_pairwise_apart _ v hitems.1, itemLeaves_pairwise_apart p (i + 1) rest hitems.2, ?_⟩
    simp only [List.mem_map, Prod.exists, exists_and_right, exists_eq_right]
    rintro _ ⟨l, ha⟩ _ ⟨l', hb⟩
    obtain ⟨r, rfl, -⟩ := get?_of_mem_leaves _ v hitems.1 ha
    obtain ⟨j, c, r', -, rfl, -⟩ := get?_of_mem_itemLeaves p (i + 1) rest hitems.2 hb
    simpa using apart_append_cons p (s := .index i) (t := .index (i + 1 + j)) (by simp; omega) r r'

theorem fieldLeaves_pairwise_apart (p : KeyPath) (fields : List (String × Value))
    (hfields : FieldsNodupKeys fields) (hkeys : (Fields.keys fields).Nodup) :
    ((fieldLeaves p fields).map Prod.fst).Pairwise KeyPath.Apart := by
  cases fields with
  | nil => simp [fieldLeaves]
  | cons kv rest =>
    obtain ⟨k, v⟩ := kv
    simp only [Fields.keys_cons, List.nodup_cons] at hkeys
    rw [fieldLeaves, List.map_append, List.pairwise_append]
    refine ⟨leaves_pairwise_apart _ v hfields.1,
      fieldLeaves_pairwise_apart p rest hfields.2 hkeys.2, ?_⟩
    simp only [List.mem_map, Prod.exists, exists_and_right, exists_eq_right]
    rintro _ ⟨l, ha⟩ _ ⟨l', hb⟩
    obtain ⟨r, rfl, -⟩ := get?_of_mem_leaves _ v hfields.1 ha
    obtain ⟨k', c, r', hc, rfl, -⟩ := get?_of_mem_fieldLeaves p rest hfields.2 hb
    have hk : k ≠ k' := fun h => hkeys.1 (h ▸ List.mem_map_of_mem (f := Prod.fst) hc)
    simpa using apart_append_cons p (s := .key k) (t := .key k') (by simpa using hk) r r'

end

/-! ### Rewrites -/

section Rewrites

variable {ok ok' : KeyPath → String → Option Value → Prop}

mutual

theorem Rewrites.mono (hok : ∀ q l o, ok q l o → ok' q l o) (p : KeyPath) (v : Value)
    {o : Option Value} (h : Rewrites ok p v o) : Rewrites ok' p v o := by
  cases v with
  | str l => cases h with | leaf h => exact .leaf (hok _ _ _ h)
  | arr items => cases h with | arr h => exact .arr (RewritesItems.mono hok p 0 items h)
  | obj fields => cases h with | obj h => exact .obj (RewritesFields.mono hok p fields h)
  | null => cases h; exact .null
  | bool b => cases h; exact .bool
  | num n => cases h; exact .num

theorem RewritesItems.mono (hok : ∀ q l o, ok q l o → ok' q l o) (p : KeyPath) (i : Nat)
    (items : List Value) {items' : List Value} (h : RewritesItems ok p i items items') :
    RewritesItems ok' p i items items' := by
  cases items with
  | nil => cases h; exact .nil
  | cons v rest =>
    cases h with
    | cons hv hrest => exact .cons (Rewrites.mono hok _ v hv) (RewritesItems.mono hok p _ rest hrest)

theorem RewritesFields.mono (hok : ∀ q l o, ok q l o → ok' q l o) (p : KeyPath)
    (fields : List (String × Value)) {fields' : List (String × Value)}
    (h : RewritesFields ok p fields fields') : RewritesFields ok' p fields fields' := by
  cases fields with
  | nil => cases h; exact .nil
  | cons kv rest =>
    cases h with
    | keep hv hrest =>
      exact .keep (Rewrites.mono hok _ _ hv) (RewritesFields.mono hok p rest hrest)
    | drop hv hrest =>
      exact .drop (Rewrites.mono hok _ _ hv) (RewritesFields.mono hok p rest hrest)

end

theorem RewritesFields.keys_sublist {p : KeyPath} {fields fields' : List (String × Value)}
    (h : RewritesFields ok p fields fields') : Fields.keys fields' <+ Fields.keys fields := by
  induction fields generalizing fields' with
  | nil => cases h; exact .slnil
  | cons kv rest ih =>
    cases h with
    | keep _ hrest => exact (ih hrest).cons_cons _
    | drop _ hrest => exact (ih hrest).cons _

theorem RewritesItems.getElem? {p : KeyPath} {j : Nat} {items items' : List Value}
    (h : RewritesItems ok p j items items') {i : Nat} {c : Value} (hc : items[i]? = some c) :
    ∃ o, Rewrites ok (p ++ [.index (j + i)]) c o ∧ items'[i]? = some (o.getD .null) := by
  induction items generalizing i j items' with
  | nil => simp at hc
  | cons v rest ih =>
    cases h with
    | cons hv hrest =>
      cases i with
      | zero => cases hc; exact ⟨_, hv, rfl⟩
      | succ i =>
        obtain ⟨o, hrw, hget⟩ := ih hrest (i := i) (by simpa using hc)
        exact ⟨o, by simpa [Nat.add_assoc, Nat.add_comm 1 i] using hrw, by simpa using hget⟩

theorem RewritesFields.get? {p : KeyPath} {fields fields' : List (String × Value)}
    (h : RewritesFields ok p fields fields') (hkeys : (Fields.keys fields).Nodup) {k : String}
    {c : Value} (hc : Fields.get? fields k = some c) :
    ∃ o, Rewrites ok (p ++ [.key k]) c o ∧ Fields.get? fields' k = o := by
  induction fields generalizing fields' with
  | nil => simp at hc
  | cons kv rest ih =>
    obtain ⟨k', v⟩ := kv
    simp only [Fields.keys_cons, List.nodup_cons] at hkeys
    by_cases hk : k' = k
    · subst hk
      simp only [Fields.get?_cons, if_true, Option.some.injEq] at hc
      subst hc
      cases h with
      | keep hv _ => exact ⟨_, hv, by simp⟩
      | drop hv hrest =>
        exact ⟨_, hv, Fields.get?_eq_none_of_not_mem fun hm => hkeys.1 (hrest.keys_sublist.subset hm)⟩
    · simp only [Fields.get?_cons, hk, if_false] at hc
      cases h with
      | keep _ hrest =>
        obtain ⟨o, hrw, hget⟩ := ih hrest hkeys.2 hc
        exact ⟨o, hrw, by simp [hk, hget]⟩
      | drop _ hrest => exact ih hrest hkeys.2 hc

/-- A child of a rewritten node that is there and not `null` is the rewrite of the
child of the original. -/
theorem Rewrites.child? {p : KeyPath} {v w : Value} (h : Rewrites ok p v (some w)) (hv : v.NodupKeys)
    {s : Step} {c c' : Value} (hc : v.child? s = some c) (hc' : w.child? s = some c')
    (hnull : c' ≠ .null) : Rewrites ok (p ++ [s]) c (some c') := by
  cases v <;> cases s <;> simp only [Value.child?, reduceCtorEq] at hc
  case arr.index items i =>
    cases h with
    | arr hitems =>
      obtain ⟨o, hrw, hget⟩ := hitems.getElem? hc
      rw [child?_arr_index, hget, Option.some.injEq] at hc'
      cases o with
      | none => exact absurd hc'.symm hnull
      | some x => cases hc'; simpa using hrw
  case obj.key fields k =>
    cases h with
    | obj hfields =>
      obtain ⟨o, hrw, hget⟩ := hfields.get? hv.1 hc
      rw [child?_obj_key, hget] at hc'
      exact hc' ▸ hrw

/-- A leaf whose every allowed outcome is a node with a property is, after the
rewrite, such a node. -/
theorem Rewrites.get?_of_leaf {p : KeyPath} {v : Value} {o : Option Value} (h : Rewrites ok p v o)
    (hv : v.NodupKeys) {q : KeyPath} {l : String} (hq : v.get? q = some (.str l)) {P : Value → Prop}
    (hleaf : ∀ o', ok (p ++ q) l o' → ∃ w, o' = some w ∧ P w) : ∃ w, o.bind (·.get? q) = some w ∧ P w := by
  induction q generalizing p v o with
  | nil =>
    cases hq
    cases h with
    | leaf hl =>
      obtain ⟨w, rfl, hw⟩ := hleaf o (by simpa using hl)
      exact ⟨w, rfl, hw⟩
  | cons s q ih =>
    obtain ⟨c, hc, hcq⟩ := Option.bind_eq_some_iff.1 hq
    have hcv := hv.child? hc
    cases v <;> cases s <;> simp only [Value.child?, reduceCtorEq] at hc
    case arr.index items i =>
      cases h with
      | arr hitems =>
        obtain ⟨oc, hrw, hget⟩ := hitems.getElem? hc
        obtain ⟨w, hw, hP⟩ := ih hrw hcv hcq (by simpa using hleaf)
        obtain ⟨c', rfl, hc'⟩ := Option.bind_eq_some_iff.1 hw
        exact ⟨w, by simpa [get?_cons, hget] using hc', hP⟩
    case obj.key fields k =>
      cases h with
      | obj hfields =>
        obtain ⟨oc, hrw, hget⟩ := hfields.get? hv.1 hc
        obtain ⟨w, hw, hP⟩ := ih hrw hcv hcq (by simpa using hleaf)
        exact ⟨w, by simpa [get?_cons, hget] using hw, hP⟩

/-- A leaf that every allowed outcome keeps is still there after the rewrite. -/
theorem Rewrites.get?_of_kept {p : KeyPath} {v : Value} {o : Option Value} (h : Rewrites ok p v o)
    (hv : v.NodupKeys) {q : KeyPath} {l : String} (hq : v.get? q = some (.str l))
    (hkept : ∀ o', ok (p ++ q) l o' → o' = some (.str l)) : o.bind (·.get? q) = some (.str l) := by
  obtain ⟨w, hw, rfl⟩ := h.get?_of_leaf hv hq (P := (· = .str l)) fun o' ho' => ⟨_, hkept o' ho', rfl⟩
  exact hw

theorem Rewrites.eq_some_of_ne_str {p : KeyPath} {v : Value} {o : Option Value} (h : Rewrites ok p v o)
    (hv : ∀ l, v ≠ .str l) : ∃ w, o = some w := by
  cases h with
  | leaf => exact absurd rfl (hv _)
  | null | bool | num | arr | obj => exact ⟨_, rfl⟩

theorem RewritesItems.set {p : KeyPath} {j : Nat} {items items' : List Value}
    (h : RewritesItems ok p j items items') {i : Nat} {c : Value} (hc : items[i]? = some c)
    {o : Option Value} (hrw : Rewrites ok (p ++ [.index (j + i)]) c o) :
    RewritesItems ok p j items (items'.set i (o.getD .null)) := by
  induction items generalizing i j items' with
  | nil => simp at hc
  | cons v rest ih =>
    cases h with
    | cons hv hrest =>
      cases i with
      | zero => cases hc; exact .cons (by simpa using hrw) hrest
      | succ i =>
        exact .cons hv (ih hrest (i := i) (by simpa using hc)
          (by simpa [Nat.add_assoc, Nat.add_comm 1 i] using hrw))

theorem RewritesFields.set {p : KeyPath} {fields fields' : List (String × Value)}
    (h : RewritesFields ok p fields fields') (hkeys : (Fields.keys fields).Nodup) {k : String}
    {c : Value} (hc : Fields.get? fields k = some c) (hk : k ∈ Fields.keys fields') {w : Value}
    (hrw : Rewrites ok (p ++ [.key k]) c (some w)) : RewritesFields ok p fields (Fields.set fields' k w) := by
  induction fields generalizing fields' with
  | nil => simp at hc
  | cons kv rest ih =>
    obtain ⟨k', v⟩ := kv
    simp only [Fields.keys_cons, List.nodup_cons] at hkeys
    by_cases hk' : k' = k
    · subst hk'
      simp only [Fields.get?_cons, if_true, Option.some.injEq] at hc
      subst hc
      cases h with
      | keep _ hrest => simpa [Fields.set] using RewritesFields.keep hrw hrest
      | drop _ hrest => exact absurd (hrest.keys_sublist.subset hk) hkeys.1
    · simp only [Fields.get?_cons, hk', if_false] at hc
      cases h with
      | keep hv hrest =>
        rw [Fields.keys_cons, List.mem_cons] at hk
        simpa [Fields.set, hk'] using
          RewritesFields.keep hv (ih hrest hkeys.2 hc (hk.resolve_left (Ne.symm hk')))
      | drop hv hrest => exact .drop hv (ih hrest hkeys.2 hc hk)

theorem RewritesFields.erase {p : KeyPath} {fields fields' : List (String × Value)}
    (h : RewritesFields ok p fields fields') (hkeys : (Fields.keys fields).Nodup) {k : String}
    {c : Value} (hc : Fields.get? fields k = some c) (hk : k ∈ Fields.keys fields')
    (hrw : Rewrites ok (p ++ [.key k]) c none) : RewritesFields ok p fields (Fields.erase fields' k) := by
  induction fields generalizing fields' with
  | nil => simp at hc
  | cons kv rest ih =>
    obtain ⟨k', v⟩ := kv
    simp only [Fields.keys_cons, List.nodup_cons] at hkeys
    by_cases hk' : k' = k
    · subst hk'
      simp only [Fields.get?_cons, if_true, Option.some.injEq] at hc
      subst hc
      cases h with
      | keep _ hrest => simpa [Fields.erase] using RewritesFields.drop hrw hrest
      | drop _ hrest => exact absurd (hrest.keys_sublist.subset hk) hkeys.1
    · simp only [Fields.get?_cons, hk', if_false] at hc
      cases h with
      | keep hv hrest =>
        rw [Fields.keys_cons, List.mem_cons] at hk
        simpa [Fields.erase, hk'] using
          RewritesFields.keep hv (ih hrest hkeys.2 hc (hk.resolve_left (Ne.symm hk')))
      | drop hv hrest => exact .drop hv (ih hrest hkeys.2 hc hk)

/-- Writing one step down, at a child that is there, the rewrite of the original
child. -/
theorem Rewrites.assignStep {p : KeyPath} {v w : Value} (h : Rewrites ok p v (some w))
    (hv : v.NodupKeys) {s : Step} {c : Value} (hc : v.child? s = some c) (hw : (w.child? s).isSome)
    {x : Option Value} (hrw : Rewrites ok (p ++ [s]) c x) {w' : Value}
    (hw' : w.assignStep s x = some w') : Rewrites ok p v (some w') := by
  cases v <;> cases s <;> simp only [Value.child?, reduceCtorEq] at hc
  case arr.index items i =>
    cases h with
    | arr hitems =>
      simp only [child?_arr_index, isSome_getElem?] at hw
      simp only [Value.assignStep, hw, if_true, Option.some.injEq] at hw'
      subst hw'
      exact .arr (hitems.set hc (by simpa using hrw))
  case obj.key fields k =>
    cases h with
    | obj hfields =>
      have hk := (Fields.isSome_get?_iff _ _).1 hw
      cases x with
      | none =>
        cases hw'
        exact .obj (hfields.erase hv.1 hc hk hrw)
      | some y =>
        cases hw'
        exact .obj (hfields.set hv.1 hc hk hrw)

/-- Assigning at a leaf that is still there, where any outcome is allowed, keeps
the tree a rewrite of the original: the leaf now has the assigned outcome. -/
theorem Rewrites.assign?_of_leaf {p : KeyPath} {v : Value} {o : Option Value}
    (h : Rewrites ok p v o) (hv : v.NodupKeys) {q : KeyPath} {l : String}
    (hq : v.get? q = some (.str l)) (hpresent : o.bind (·.get? q) = some (.str l))
    (hany : ∀ x, ok (p ++ q) l x) (x : Option Value) :
    ∃ o', (o.getD .null).assign? q x = some (o'.getD .null) ∧ Rewrites ok p v o' := by
  induction q generalizing p v o with
  | nil =>
    cases hq
    exact ⟨x, rfl, .leaf (by simpa using hany x)⟩
  | cons s q ih =>
    obtain ⟨w, rfl, hwq⟩ := Option.bind_eq_some_iff.1 hpresent
    obtain ⟨c, hc, hcq⟩ := Option.bind_eq_some_iff.1 hq
    obtain ⟨c', hc', hc'q⟩ := Option.bind_eq_some_iff.1 hwq
    have hw : (w.child? s).isSome := by simp [hc']
    have hnull : c' ≠ .null := by
      rintro rfl
      cases q <;> simp [get?_cons, Value.child?] at hc'q
    have hrw := h.child? hv hc hc' hnull
    cases q with
    | nil =>
      cases hcq
      obtain ⟨w', hw'⟩ := Option.isSome_iff_exists.1 (assignStep_isSome hw x)
      exact ⟨some w', hw', h.assignStep hv hc hw (.leaf (by simpa using hany x)) hw'⟩
    | cons t q =>
      obtain ⟨o'', hassign, hrw''⟩ := ih hrw (hv.child? hc) hcq (by simpa using hc'q)
        (by simpa using hany)
      have hcs : ∀ l', c ≠ .str l' := by rintro l' rfl; simp [get?_cons, Value.child?] at hcq
      obtain ⟨c'', rfl⟩ := hrw''.eq_some_of_ne_str hcs
      obtain ⟨w', hw'⟩ := Option.isSome_iff_exists.1 (assignStep_isSome hw (some c''))
      refine ⟨some w', ?_, h.assignStep hv hc hw hrw'' hw'⟩
      simp only [Option.getD_some] at hassign ⊢
      rw [assign?_cons_of_child? hc' (List.cons_ne_nil t q), hassign, Option.bind_some, hw']

end Rewrites

end Value

end LayeredConfig
