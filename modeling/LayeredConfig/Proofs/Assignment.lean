import LayeredConfig.Proofs.Resolve

/-! Assigning at a path, as a whole. An assignment takes place exactly when the
path is the root, or the node at its parent is an object and the last step a
key, or an array and the last step an index in range; otherwise the tree stays
as it was. Assigning along a path writes one step down at each of its proper
prefixes: at the parent the value itself is written (or the key erased, or
`null` put in the slot), and above it the child, assigned along the rest, is
written back under a step that is already there, so the objects above keep
their keys in order. Nodes apart from the path stay as they were. -/

namespace LayeredConfig

namespace Fields

variable {α : Type}

theorem keys_erase (fs : List (String × α)) (key : String) :
    keys (erase fs key) = (keys fs).erase key := by
  induction fs with
  | nil => rfl
  | cons kv rest ih =>
    obtain ⟨k, v⟩ := kv
    by_cases h : k = key
    · simp [erase, h]
    · simp [erase, h, ih]

theorem get?_erase_self {fs : List (String × α)} (h : (keys fs).Nodup) (key : String) :
    get? (erase fs key) key = none :=
  get?_eq_none_of_not_mem (by rw [keys_erase]; exact h.not_mem_erase)

end Fields

namespace Value

/-- A node takes a write one step down under a key when it is an object, and
under an index when it is an array holding that index. -/
theorem assignStep_isSome_iff (node : Value) (s : Step) (o : Option Value) :
    (node.assignStep s o).isSome ↔
      (∃ fs k, node = .obj fs ∧ s = .key k) ∨
        ∃ items i, node = .arr items ∧ s = .index i ∧ i < items.length := by
  cases node <;> cases s <;> cases o <;> simp [assignStep]

theorem childAssign?_of_ne_nil (c : Option Value) {rest : KeyPath} (h : rest ≠ []) (o : Option Value) :
    childAssign? c rest o = (c.bind fun c => c.assign? rest o).map some := by
  cases rest with
  | nil => exact absurd rfl h
  | cons _ _ => rfl

/-- Assigning along a path writes one step down at each of its prefixes: the
node there takes the value when the rest of the path is empty, and otherwise
its child assigned along the rest. -/
theorem get?_assign?_prefix {v w : Value} {q : KeyPath} {s : Step} {r : KeyPath} {o : Option Value}
    (h : v.assign? (q ++ s :: r) o = some w) :
    ∃ node x node', v.get? q = some node ∧ childAssign? (node.child? s) r o = some x ∧
      node.assignStep s x = some node' ∧ w.get? q = some node' := by
  induction q generalizing v w with
  | nil =>
    rw [List.nil_append, assign?_cons, Option.bind_eq_some_iff] at h
    obtain ⟨x, hx, hw⟩ := h
    exact ⟨v, x, w, rfl, hx, hw, rfl⟩
  | cons t q ih =>
    rw [List.cons_append, assign?_cons, Option.bind_eq_some_iff,
      childAssign?_of_ne_nil _ (by simp)] at h
    obtain ⟨x, hx, hw⟩ := h
    obtain ⟨c', hc', rfl⟩ := Option.map_eq_some_iff.1 hx
    obtain ⟨c, hc, hca⟩ := Option.bind_eq_some_iff.1 hc'
    obtain ⟨node, x, node', hnode, hx, hstep, hw'⟩ := ih hca
    refine ⟨node, x, node', ?_, hx, hstep, ?_⟩
    · rw [get?_cons, hc, Option.bind_some, hnode]
    · rw [get?_cons, child?_assignStep_self hw, Option.bind_some, hw']

theorem get?_assign?_parent {v w : Value} {q : KeyPath} {s : Step} {o : Option Value}
    (h : v.assign? (q ++ [s]) o = some w) :
    ∃ node node', v.get? q = some node ∧ node.assignStep s o = some node' ∧ w.get? q = some node' := by
  obtain ⟨node, x, node', hnode, hx, hstep, hw⟩ := get?_assign?_prefix h
  simp only [childAssign?, Option.some.injEq] at hx
  subst hx
  exact ⟨node, node', hnode, hstep, hw⟩

theorem get?_assign?_above {v w : Value} {q : KeyPath} {s : Step} {r : KeyPath} {o : Option Value}
    (h : v.assign? (q ++ s :: r) o = some w) (hr : r ≠ []) :
    ∃ node c c' node', v.get? q = some node ∧ node.child? s = some c ∧
      node.assignStep s (some c') = some node' ∧ w.get? q = some node' := by
  obtain ⟨node, x, node', hnode, hx, hstep, hw⟩ := get?_assign?_prefix h
  rw [childAssign?_of_ne_nil _ hr] at hx
  obtain ⟨c', hc', rfl⟩ := Option.map_eq_some_iff.1 hx
  obtain ⟨c, hc, -⟩ := Option.bind_eq_some_iff.1 hc'
  exact ⟨node, c, c', node', hnode, hc, hstep, hw⟩

theorem isSome_assign?_concat_iff (v : Value) (q : KeyPath) (s : Step) (o : Option Value) :
    (v.assign? (q ++ [s]) o).isSome ↔ ∃ node, v.get? q = some node ∧ (node.assignStep s o).isSome := by
  constructor
  · intro h
    obtain ⟨w, hw⟩ := Option.isSome_iff_exists.1 h
    obtain ⟨node, node', hnode, hstep, -⟩ := get?_assign?_parent hw
    exact ⟨node, hnode, by simp [hstep]⟩
  · rintro ⟨node, hnode, hstep⟩
    induction q generalizing v with
    | nil => cases hnode; exact hstep
    | cons t q ih =>
      obtain ⟨c, hc, hcq⟩ := Option.bind_eq_some_iff.1 hnode
      obtain ⟨c', hc'⟩ := Option.isSome_iff_exists.1 (ih c hcq)
      rw [List.cons_append, assign?_cons_of_child? hc (by simp), hc', Option.bind_some]
      exact assignStep_isSome (by simp [hc]) _

theorem get?_assign?_self {v w x : Value} {p : KeyPath} (h : v.assign? p (some x) = some w) :
    w.get? p = some x := by
  obtain rfl | ⟨q, s, rfl⟩ := List.eq_nil_or_concat p
  · cases h
    rfl
  · rw [List.concat_eq_append] at h ⊢
    obtain ⟨node, node', -, hstep, hw⟩ := get?_assign?_parent h
    rw [get?_append, hw, Option.bind_some, get?_cons, child?_assignStep_self hstep]
    rfl

theorem assign_snd_of_fst_false {v : Value} {p : KeyPath} {o : Option Value}
    (h : (v.assign p o).1 = false) : (v.assign p o).2 = v := by
  cases hx : v.assign? p o with
  | none => simp [assign, hx]
  | some w => simp [assign, hx] at h

/-- What an assignment of `o` at `p` made of a tree `t`: the tree `w` after it. -/
structure Assigned (t : Value) (p : KeyPath) (o : Option Value) (w : Value) : Prop where
  /-- A value assigned is the node at the path. -/
  written : ∀ x, o = some x → w.get? p = some x
  /-- Assigning nothing at the root leaves `null`, -/
  root_null : o = none → p = [] → w = .null
  /-- under a key erases the key, -/
  key_erased : ∀ q k, o = none → p = q ++ [.key k] → w.get? p = none
  /-- and at an index leaves `null` in the slot. -/
  slot_null : ∀ q i, o = none → p = q ++ [.index i] → w.get? p = some .null
  /-- Nodes at paths apart from the path are as they were. -/
  apart : ∀ q, KeyPath.Apart p q → w.get? q = t.get? q
  /-- Objects above the parent keep their keys in order. -/
  keys_above : ∀ q s r fs, p = q ++ s :: r → r ≠ [] → t.get? q = some (.obj fs) →
    ∃ fs', w.get? q = some (.obj fs') ∧ Fields.keys fs' = Fields.keys fs
  /-- A parent object that is set a key keeps its keys in order, a new key last. -/
  keys_set : ∀ q k fs x, p = q ++ [.key k] → o = some x → t.get? q = some (.obj fs) →
    ∃ fs', w.get? q = some (.obj fs') ∧
      Fields.keys fs' = if k ∈ Fields.keys fs then Fields.keys fs else Fields.keys fs ++ [k]
  /-- A parent object that loses a key keeps the others in order. -/
  keys_erased : ∀ q k fs, p = q ++ [.key k] → o = none → t.get? q = some (.obj fs) →
    ∃ fs', w.get? q = some (.obj fs') ∧ Fields.keys fs' = (Fields.keys fs).erase k

section Effects

variable {t w : Value} {p : KeyPath} {o : Option Value}

theorem get?_assign?_erased (ht : t.NodupKeys) (h : t.assign? p none = some w) {q : KeyPath} {k : String}
    (hp : p = q ++ [.key k]) : w.get? p = none := by
  subst hp
  obtain ⟨node, node', hnode, hstep, hw⟩ := get?_assign?_parent h
  cases node <;> simp only [assignStep, reduceCtorEq] at hstep
  case obj fs =>
    cases hstep
    have hkeys : (Fields.keys fs).Nodup := ((nodupKeys_obj fs).1 (ht.get? hnode)).1
    rw [get?_append, hw, Option.bind_some, get?_cons, child?_obj_key, Fields.get?_erase_self hkeys]
    rfl

theorem get?_assign?_nulled (h : t.assign? p none = some w) {q : KeyPath} {i : Nat}
    (hp : p = q ++ [.index i]) : w.get? p = some .null := by
  subst hp
  obtain ⟨node, node', -, hstep, hw⟩ := get?_assign?_parent h
  cases node <;> simp only [assignStep, reduceCtorEq] at hstep
  case arr items =>
    split at hstep
    · cases hstep
      rw [get?_append, hw, Option.bind_some, get?_cons, child?_arr_index, List.getElem?_set_self ‹_›]
      rfl
    · cases hstep

theorem keys_assign?_above (h : t.assign? p o = some w) {q : KeyPath} {s : Step} {r : KeyPath}
    (hp : p = q ++ s :: r) (hr : r ≠ []) {fs : List (String × Value)} (hq : t.get? q = some (.obj fs)) :
    ∃ fs', w.get? q = some (.obj fs') ∧ Fields.keys fs' = Fields.keys fs := by
  subst hp
  obtain ⟨node, c, c', node', hnode, hc, hstep, hw⟩ := get?_assign?_above h hr
  rw [hq, Option.some.injEq] at hnode
  subst hnode
  cases s with
  | index i => simp [Value.child?] at hc
  | key k =>
    have hk : k ∈ Fields.keys fs := (Fields.isSome_get?_iff fs k).1 (by simp [← child?_obj_key, hc])
    cases hstep
    exact ⟨_, hw, by rw [Fields.keys_set, if_pos hk]⟩

theorem keys_assign?_set {x : Value} (h : t.assign? p (some x) = some w) {q : KeyPath} {k : String}
    (hp : p = q ++ [.key k]) {fs : List (String × Value)} (hq : t.get? q = some (.obj fs)) :
    ∃ fs', w.get? q = some (.obj fs') ∧
      Fields.keys fs' = if k ∈ Fields.keys fs then Fields.keys fs else Fields.keys fs ++ [k] := by
  subst hp
  obtain ⟨node, node', hnode, hstep, hw⟩ := get?_assign?_parent h
  rw [hq, Option.some.injEq] at hnode
  subst hnode
  cases hstep
  exact ⟨_, hw, Fields.keys_set fs k x⟩

theorem keys_assign?_erased (h : t.assign? p none = some w) {q : KeyPath} {k : String}
    (hp : p = q ++ [.key k]) {fs : List (String × Value)} (hq : t.get? q = some (.obj fs)) :
    ∃ fs', w.get? q = some (.obj fs') ∧ Fields.keys fs' = (Fields.keys fs).erase k := by
  subst hp
  obtain ⟨node, node', hnode, hstep, hw⟩ := get?_assign?_parent h
  rw [hq, Option.some.injEq] at hnode
  subst hnode
  cases hstep
  exact ⟨_, hw, Fields.keys_erase fs k⟩

theorem assigned_of_assign? (ht : t.NodupKeys) (h : t.assign? p o = some w) : Assigned t p o w where
  written x hx := get?_assign?_self (hx ▸ h)
  root_null ho hp := by
    subst ho hp
    cases h
    rfl
  key_erased q k ho hp := get?_assign?_erased ht (ho ▸ h) hp
  slot_null q i ho hp := get?_assign?_nulled (ho ▸ h) hp
  apart q hq := get?_assign?_of_apart h hq
  keys_above q s r fs hp hr hq := keys_assign?_above h hp hr hq
  keys_set q k fs x hp ho hq := keys_assign?_set (ho ▸ h) hp hq
  keys_erased q k fs hp ho hq := keys_assign?_erased (ho ▸ h) hp hq

end Effects

/-- An assignment takes place exactly when the path is the root, or its parent
node is an object and its last step a key, or an array and its last step an
index in range. When it does not, the tree is unchanged. When it does, the
value is at the path, or, when nothing is assigned, the root is `null`, the key
is erased from its object or the slot holds `null`; every node apart from the
path is as it was, objects above the parent keep their keys in order, and the
parent keeps its keys in order, with a key that is new set last. -/
theorem assign_effect (t : Value) (ht : t.NodupKeys) (p : KeyPath) (o : Option Value) :
    ((t.assign p o).1 = true ↔ p = [] ∨ ∃ q s node, p = q ++ [s] ∧ t.get? q = some node ∧
        ((∃ fs k, node = .obj fs ∧ s = .key k) ∨
          ∃ items i, node = .arr items ∧ s = .index i ∧ i < items.length)) ∧
    ((t.assign p o).1 = false → (t.assign p o).2 = t) ∧
    ((t.assign p o).1 = true → Assigned t p o (t.assign p o).2) := by
  refine ⟨?_, assign_snd_of_fst_false, fun hok => ?_⟩
  · rw [assign_fst]
    obtain rfl | ⟨q, s, rfl⟩ := List.eq_nil_or_concat p
    · simp [assign?]
    · rw [List.concat_eq_append, isSome_assign?_concat_iff]
      constructor
      · rintro ⟨node, hnode, hstep⟩
        exact .inr ⟨q, s, node, rfl, hnode, (assignStep_isSome_iff node s o).1 hstep⟩
      · rintro (hnil | ⟨q', s', node, hp, hnode, hstep⟩)
        · simp at hnil
        · obtain ⟨rfl, hs⟩ := List.append_inj' hp rfl
          cases hs
          exact ⟨node, hnode, (assignStep_isSome_iff node s o).2 hstep⟩
  · rw [assign_fst] at hok
    obtain ⟨w, hw⟩ := Option.isSome_iff_exists.1 hok
    rw [assign_snd_of_assign? hw]
    exact assigned_of_assign? ht hw

/-- Setting a new key under an object two levels down. -/
theorem assign_effect_new_key :
    let t : Value := .obj [("a", .obj [("b", .num (.int 1))]), ("c", .arr [.num (.int 2)])]
    let p : KeyPath := [.key "a", .key "d"]
    let o : Option Value := some (.str "x")
    t.NodupKeys ∧
    ((t.assign p o).1 = true ↔ p = [] ∨ ∃ q s node, p = q ++ [s] ∧ t.get? q = some node ∧
        ((∃ fs k, node = .obj fs ∧ s = .key k) ∨
          ∃ items i, node = .arr items ∧ s = .index i ∧ i < items.length)) ∧
    ((t.assign p o).1 = false → (t.assign p o).2 = t) ∧
    ((t.assign p o).1 = true → Assigned t p o (t.assign p o).2) := by
  intro t p o
  have ht : t.NodupKeys := by simp [t]
  exact ⟨ht, assign_effect t ht p o⟩

end Value

end LayeredConfig
