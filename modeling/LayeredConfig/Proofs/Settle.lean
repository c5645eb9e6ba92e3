import LayeredConfig.Proofs.Walk

/-! A tree with an answer applied at each of its leaves. `settle d p v` is the
node `v` at `p` with the answer `d q` applied at each leaf `q`: a kept leaf
stays, a replaced one becomes its value, a removed one becomes nothing, which
drops its field from an object and leaves `null` in an array. Every other node
keeps its kind.

A walk gives its answers as a list, one per leaf in the order the leaves were
met. `answerAt` hands each leaf its answer by path. When a failure stopped the
walk, `heldAt` gives the answer that took effect: the objects on the way to the
failing leaf never reached their end, so the removals of their own fields are
lost. -/

namespace LayeredConfig

namespace Value

mutual

/-- A node with the answer at each of its leaves applied. -/
def settle (d : KeyPath → Visit) (p : KeyPath) : Value → Option Value
  | .str l => (d p).outcome (.str l)
  | .arr items => some (.arr (settleItems d p 0 items))
  | .obj fields => some (.obj (settleFields d p fields))
  | .null => some .null
  | .bool b => some (.bool b)
  | .num n => some (.num n)

def settleItems (d : KeyPath → Visit) (p : KeyPath) (i : Nat) : List Value → List Value
  | [] => []
  | v :: rest => (settle d (p ++ [.index i]) v).getD .null :: settleItems d p (i + 1) rest

def settleFields (d : KeyPath → Visit) (p : KeyPath) : List (String × Value) → List (String × Value)
  | [] => []
  | (k, v) :: rest =>
    match settle d (p ++ [.key k]) v with
    | some w => (k, w) :: settleFields d p rest
    | none => settleFields d p rest

end

/-- Object fields settled in order, a field that became nothing keeping its
old value: the fields before their removed keys are erased. -/
def keptFields (d : KeyPath → Visit) (p : KeyPath) : List (String × Value) → List (String × Value)
  | [] => []
  | (k, v) :: rest => (k, (settle d (p ++ [.key k]) v).getD v) :: keptFields d p rest

/-- The keys whose field became nothing. -/
def removedKeys (d : KeyPath → Visit) (p : KeyPath) : List (String × Value) → List String
  | [] => []
  | (k, v) :: rest =>
    match settle d (p ++ [.key k]) v with
    | some _ => removedKeys d p rest
    | none => k :: removedKeys d p rest

/-- The answer of the first leaf at a path among leaves answered in order; keep
for a leaf without an answer. -/
def answerAt : List (KeyPath × String) → List Visit → KeyPath → Visit
  | (q', _) :: ls, a :: answers, q => if q' = q then a else answerAt ls answers q
  | _, _, _ => .keep

/-- Whether a leaf is a field of an object that encloses the leaf at `failing`. -/
def pendsOn (failing q : KeyPath) : Bool :=
  match q.getLast? with
  | some (.key _) => q.dropLast.isPrefixOf failing
  | _ => false

end Value

/-- A removal that is pending becomes keep. -/
def Visit.heldIf (pending : Bool) : Visit → Visit
  | .remove => if pending then .keep else .remove
  | a => a

namespace Value

/-- The answer in effect at a leaf when the walk stopped at the first leaf left
without an answer: removals of fields of the objects enclosing that leaf are
lost. -/
def heldAt (ls : List (KeyPath × String)) (answers : List Visit) (q : KeyPath) : Visit :=
  (answerAt ls answers q).heldIf ((ls[answers.length]?).any fun f => pendsOn f.1 q)

/-! ### Settling -/

section Settle

variable {d d' : KeyPath → Visit}

mutual

theorem settle_congr (p : KeyPath) (v : Value) (h : ∀ q l, (q, l) ∈ leaves p v → d q = d' q) :
    settle d p v = settle d' p v := by
  cases v with
  | str l => simp [settle, h p l (by simp [leaves])]
  | arr items => simp [settle, settleItems_congr p 0 items h]
  | obj fields => simp [settle, settleFields_congr p fields h]
  | null | bool _ | num _ => rfl

theorem settleItems_congr (p : KeyPath) (i : Nat) (items : List Value)
    (h : ∀ q l, (q, l) ∈ itemLeaves p i items → d q = d' q) :
    settleItems d p i items = settleItems d' p i items := by
  cases items with
  | nil => rfl
  | cons v rest =>
    have hv := settle_congr (p ++ [.index i]) v fun q l hq => h q l (List.mem_append_left _ hq)
    have hrest := settleItems_congr p (i + 1) rest fun q l hq => h q l (List.mem_append_right _ hq)
    simp [settleItems, hv, hrest]

theorem settleFields_congr (p : KeyPath) (fields : List (String × Value))
    (h : ∀ q l, (q, l) ∈ fieldLeaves p fields → d q = d' q) :
    settleFields d p fields = settleFields d' p fields := by
  cases fields with
  | nil => rfl
  | cons kv rest =>
    obtain ⟨k, v⟩ := kv
    have hv := settle_congr (p ++ [.key k]) v fun q l hq => h q l (List.mem_append_left _ hq)
    have hrest := settleFields_congr p rest fun q l hq => h q l (List.mem_append_right _ hq)
    simp only [settleFields, hv, hrest]

end

mutual

theorem settle_of_keep (p : KeyPath) (v : Value) (h : ∀ q l, (q, l) ∈ leaves p v → d q = .keep) :
    settle d p v = some v := by
  cases v with
  | str l => simp [settle, h p l (by simp [leaves]), Visit.outcome]
  | arr items => simp [settle, settleItems_of_keep p 0 items h]
  | obj fields => simp [settle, settleFields_of_keep p fields h]
  | null | bool _ | num _ => rfl

theorem settleItems_of_keep (p : KeyPath) (i : Nat) (items : List Value)
    (h : ∀ q l, (q, l) ∈ itemLeaves p i items → d q = .keep) : settleItems d p i items = items := by
  cases items with
  | nil => rfl
  | cons v rest =>
    have hv := settle_of_keep (p ++ [.index i]) v fun q l hq => h q l (List.mem_append_left _ hq)
    have hrest := settleItems_of_keep p (i + 1) rest fun q l hq => h q l (List.mem_append_right _ hq)
    simp [settleItems, hv, hrest]

theorem settleFields_of_keep (p : KeyPath) (fields : List (String × Value))
    (h : ∀ q l, (q, l) ∈ fieldLeaves p fields → d q = .keep) : settleFields d p fields = fields := by
  cases fields with
  | nil => rfl
  | cons kv rest =>
    obtain ⟨k, v⟩ := kv
    have hv := settle_of_keep (p ++ [.key k]) v fun q l hq => h q l (List.mem_append_left _ hq)
    have hrest := settleFields_of_keep p rest fun q l hq => h q l (List.mem_append_right _ hq)
    simp only [settleFields, hv, hrest]

end

mutual

/-- Settling is a rewrite of the node in which each leaf gets the outcome of its
answer. -/
theorem settle_rewrites (p : KeyPath) (v : Value) :
    Rewrites (fun q l o => o = (d q).outcome (.str l)) p v (settle d p v) := by
  cases v with
  | str l => exact .leaf rfl
  | arr items => exact .arr (settleItems_rewrites p 0 items)
  | obj fields => exact .obj (settleFields_rewrites p fields)
  | null => exact .null
  | bool _ => exact .bool
  | num _ => exact .num

theorem settleItems_rewrites (p : KeyPath) (i : Nat) (items : List Value) :
    RewritesItems (fun q l o => o = (d q).outcome (.str l)) p i items (settleItems d p i items) := by
  cases items with
  | nil => exact .nil
  | cons v rest => exact .cons (settle_rewrites _ v) (settleItems_rewrites p (i + 1) rest)

theorem settleFields_rewrites (p : KeyPath) (fields : List (String × Value)) :
    RewritesFields (fun q l o => o = (d q).outcome (.str l)) p fields (settleFields d p fields) := by
  cases fields with
  | nil => exact .nil
  | cons kv rest =>
    obtain ⟨k, v⟩ := kv
    have hv : Rewrites _ _ v (settle d (p ++ [.key k]) v) := settle_rewrites (p ++ [.key k]) v
    simp only [settleFields]
    cases hs : settle d (p ++ [.key k]) v with
    | some w => exact .keep (hs ▸ hv) (settleFields_rewrites p rest)
    | none => exact .drop (hs ▸ hv) (settleFields_rewrites p rest)

end

theorem settle_isSome_of_ne_str (p : KeyPath) {v : Value} (hv : ∀ l, v ≠ .str l) :
    (settle d p v).isSome := by
  cases v with
  | str l => exact absurd rfl (hv l)
  | arr _ | obj _ | null | bool _ | num _ => rfl

theorem keys_keptFields (p : KeyPath) (fields : List (String × Value)) :
    Fields.keys (keptFields d p fields) = Fields.keys fields := by
  induction fields with
  | nil => rfl
  | cons kv rest ih => simp [keptFields, Fields.keys_cons, ih]

theorem removedKeys_subset (p : KeyPath) (fields : List (String × Value)) :
    ∀ k ∈ removedKeys d p fields, k ∈ Fields.keys fields := by
  induction fields with
  | nil => simp [removedKeys]
  | cons kv rest ih =>
    obtain ⟨k, v⟩ := kv
    intro k' hk'
    simp only [removedKeys] at hk'
    split at hk'
    · simp [Fields.keys_cons, ih k' hk']
    · rcases List.mem_cons.1 hk' with rfl | hk'
      · simp [Fields.keys_cons]
      · simp [Fields.keys_cons, ih k' hk']

/-- Erasing the removed keys from the kept fields, once every field is settled,
drops exactly the fields that became nothing; each key occurs once. -/
theorem foldl_erase_keptFields (p : KeyPath) {fields : List (String × Value)}
    (hkeys : (Fields.keys fields).Nodup) :
    (removedKeys d p fields).foldl Fields.erase (keptFields d p fields) = settleFields d p fields := by
  rw [Fields.foldl_erase_eq_filter ((keys_keptFields p fields).symm ▸ hkeys)]
  induction fields with
  | nil => rfl
  | cons kv rest ih =>
    obtain ⟨k, v⟩ := kv
    simp only [Fields.keys_cons, List.nodup_cons] at hkeys
    have hk : k ∉ Fields.keys (keptFields d p rest) := (keys_keptFields p rest).symm ▸ hkeys.1
    have hk' : k ∉ removedKeys d p rest := fun h => hkeys.1 (removedKeys_subset p rest k h)
    cases hs : settle d (p ++ [.key k]) v with
    | some w =>
      simp only [keptFields, removedKeys, settleFields, hs, Option.getD_some]
      rw [List.filter_cons_of_pos (by simpa using hk'), ih hkeys.2]
    | none =>
      simp only [keptFields, removedKeys, settleFields, hs, Option.getD_none]
      rw [List.filter_cons_of_neg (by simp), filter_not_mem_cons hk, ih hkeys.2]

end Settle

/-! ### Answers by path -/

theorem answerAt_nil_right (ls : List (KeyPath × String)) (q : KeyPath) : answerAt ls [] q = .keep := by
  cases ls <;> rfl

theorem answerAt_of_not_mem {ls : List (KeyPath × String)} {q : KeyPath} (hq : q ∉ ls.map Prod.fst)
    (answers : List Visit) : answerAt ls answers q = .keep := by
  induction ls generalizing answers with
  | nil => rfl
  | cons x ls ih =>
    obtain ⟨q', l⟩ := x
    have hne : q' ≠ q := fun h => hq (by simp [h])
    cases answers with
    | nil => rfl
    | cons a answers => simp [answerAt, hne, ih (fun h => hq (by simp [h]))]

theorem answerAt_append_short {ls₁ : List (KeyPath × String)} {answers : List Visit}
    (h : answers.length ≤ ls₁.length) (ls₂ : List (KeyPath × String)) (q : KeyPath) :
    answerAt (ls₁ ++ ls₂) answers q = answerAt ls₁ answers q := by
  induction ls₁ generalizing answers with
  | nil => simp at h; simp [h, answerAt_nil_right]
  | cons x ls ih =>
    obtain ⟨q', l⟩ := x
    cases answers with
    | nil => simp [answerAt_nil_right]
    | cons a answers => simp [answerAt, ih (by simpa using h)]

theorem answerAt_append_of_mem {ls₁ : List (KeyPath × String)} {answers₁ : List Visit}
    (h : answers₁.length = ls₁.length) {q : KeyPath} (hq : q ∈ ls₁.map Prod.fst)
    (ls₂ : List (KeyPath × String)) (answers₂ : List Visit) :
    answerAt (ls₁ ++ ls₂) (answers₁ ++ answers₂) q = answerAt ls₁ answers₁ q := by
  induction ls₁ generalizing answers₁ with
  | nil => simp at hq
  | cons x ls ih =>
    obtain ⟨q', l⟩ := x
    cases answers₁ with
    | nil => simp at h
    | cons a answers =>
      by_cases hq' : q' = q
      · simp [answerAt, hq']
      · have hq₁ : q ∈ ls.map Prod.fst := by simpa [Ne.symm hq'] using hq
        simp [answerAt, hq', ih (by simpa using h) hq₁]

theorem answerAt_append_of_not_mem {ls₁ : List (KeyPath × String)} {answers₁ : List Visit}
    (h : answers₁.length = ls₁.length) {q : KeyPath} (hq : q ∉ ls₁.map Prod.fst)
    (ls₂ : List (KeyPath × String)) (answers₂ : List Visit) :
    answerAt (ls₁ ++ ls₂) (answers₁ ++ answers₂) q = answerAt ls₂ answers₂ q := by
  induction ls₁ generalizing answers₁ with
  | nil => simp at h; simp [h]
  | cons x ls ih =>
    obtain ⟨q', l⟩ := x
    have hne : q' ≠ q := fun h => hq (by simp [h])
    cases answers₁ with
    | nil => simp at h
    | cons a answers => simp [answerAt, hne, ih (by simpa using h) (fun h => hq (by simp [h]))]

@[simp] theorem answerAt_singleton (q : KeyPath) (l : String) (a : Visit) :
    answerAt [(q, l)] [a] q = a := by
  simp [answerAt]

/-! ### Held answers -/

@[simp] theorem Visit.heldIf_false (a : Visit) : a.heldIf false = a := by
  cases a <;> rfl

@[simp] theorem Visit.heldIf_keep (pending : Bool) : Visit.keep.heldIf pending = .keep := rfl

theorem heldAt_of_not_mem {ls : List (KeyPath × String)} {q : KeyPath} (hq : q ∉ ls.map Prod.fst)
    (answers : List Visit) : heldAt ls answers q = .keep := by
  simp [heldAt, answerAt_of_not_mem hq]

theorem heldAt_nil_right (ls : List (KeyPath × String)) (q : KeyPath) : heldAt ls [] q = .keep := by
  simp [heldAt, answerAt_nil_right]

theorem heldAt_append_short {ls₁ : List (KeyPath × String)} {answers : List Visit}
    (h : answers.length < ls₁.length) (ls₂ : List (KeyPath × String)) (q : KeyPath) :
    heldAt (ls₁ ++ ls₂) answers q = heldAt ls₁ answers q := by
  simp [heldAt, answerAt_append_short h.le, List.getElem?_append_left h]

theorem heldAt_append_of_not_mem {ls₁ : List (KeyPath × String)} {answers₁ : List Visit}
    (h : answers₁.length = ls₁.length) {q : KeyPath} (hq : q ∉ ls₁.map Prod.fst)
    (ls₂ : List (KeyPath × String)) (answers₂ : List Visit) :
    heldAt (ls₁ ++ ls₂) (answers₁ ++ answers₂) q = heldAt ls₂ answers₂ q := by
  simp [heldAt, answerAt_append_of_not_mem h hq, h, List.getElem?_append_right]

theorem heldAt_append_of_mem {ls₁ : List (KeyPath × String)} {answers₁ : List Visit}
    (h : answers₁.length = ls₁.length) {q : KeyPath} (hq : q ∈ ls₁.map Prod.fst)
    (ls₂ : List (KeyPath × String)) (answers₂ : List Visit) :
    heldAt (ls₁ ++ ls₂) (answers₁ ++ answers₂) q =
      (answerAt ls₁ answers₁ q).heldIf ((ls₂[answers₂.length]?).any fun f => pendsOn f.1 q) := by
  simp [heldAt, answerAt_append_of_mem h hq, h, List.getElem?_append_right]

/-! ### Pending removals -/

theorem pendsOn_key {p f : KeyPath} (hp : p <+: f) (k : String) : pendsOn f (p ++ [.key k]) = true := by
  simp [pendsOn, hp]

theorem pendsOn_index (f p : KeyPath) (i : Nat) : pendsOn f (p ++ [.index i]) = false := by
  simp [pendsOn]

/-- A leaf strictly below the step `s` pends on no path that takes another step
there. -/
theorem pendsOn_below {p r : KeyPath} {s t : Step} (hst : s ≠ t) (hr : r ≠ []) (r' : KeyPath) :
    pendsOn (p ++ t :: r') (p ++ s :: r) = false := by
  have hne : (p ++ s :: r).dropLast = p ++ s :: r.dropLast := by
    rw [List.dropLast_append_of_ne_nil (by simp), List.dropLast_cons_of_ne_nil hr]
  have hnp : ¬ (p ++ s :: r.dropLast) <+: (p ++ t :: r') := by
    rw [List.prefix_append_right_inj, List.cons_prefix_cons]
    exact fun h => hst h.1
  unfold pendsOn
  split
  · rw [hne]
    exact Bool.eq_false_iff.2 fun h => hnp (List.isPrefixOf_iff_prefix.1 h)
  · rfl

end Value

end LayeredConfig
