import LayeredConfig.Proofs.Settle

/-! The calls a walk makes and the tree it leaves. A walk calls its visitor once
for each string leaf of the tree it is given, in pre-order and with the leaf's
path, and stops at the first failure: it is `visitAll` over `leaves [] t`
followed by a pure function of the answers. When every call succeeds, that
function settles the tree with each leaf's answer; when one fails, it settles
the tree with the answers given before, less the removals still pending in the
objects that enclose the failing leaf.

The walk runs in any lawful monad. The argument is one induction over the tree
that splits the leaves of a container into those of its first child and the
rest; `Aligned` records that `visitAll` gives one answer per leaf, or fewer and
a failure, which is what lets the answers be split the same way. -/

namespace LayeredConfig

/-- Two continuations that agree on every result a computation may give bind
it alike. -/
theorem SatisfiesM.bind_congr {m : Type → Type} [Monad m] [LawfulMonad m] {α β : Type}
    {P : α → Prop} {x : m α} (hx : SatisfiesM P x) {f g : α → m β} (h : ∀ a, P a → f a = g a) :
    x >>= f = x >>= g := by
  obtain ⟨x', rfl⟩ := hx
  simp only [bind_map_left]
  congr 1
  funext a
  exact h a.1 a.2

namespace Value

section Order

variable {m : Type → Type} [Monad m] {ε : Type}

/-- Visit leaves in order until the first failure: the answers given, and the
failure. -/
def visitAll (visit : KeyPath → String → m (Except ε Visit)) :
    List (KeyPath × String) → m (List Visit × Option ε)
  | [] => pure ([], none)
  | (q, l) :: rest => do
    match ← visit q l with
    | .error e => pure ([], some e)
    | .ok a =>
      let r ← visitAll visit rest
      pure (a :: r.1, r.2)

/-- Answers to leaves as `visitAll` gives them: one for each leaf, or fewer and
a failure. -/
def Aligned (ls : List (KeyPath × String)) (r : List Visit × Option ε) : Prop :=
  match r.2 with
  | none => r.1.length = ls.length
  | some _ => r.1.length < ls.length

/-- The answer a walk gives for a node: a leaf's own answer, keep for any other
node. -/
def nodeAnswer (d : KeyPath → Visit) (p : KeyPath) : Value → Visit
  | .str _ => d p
  | _ => .keep

/-- A node with the leaves below it settled: a leaf is left for its parent. -/
def settleInside (d : KeyPath → Visit) (p : KeyPath) : Value → Value
  | .str l => .str l
  | v => (settle d p v).getD .null

/-- What the walk of a node gives, from the answers its leaves got. -/
def walkedNode (p : KeyPath) (v : Value) (r : List Visit × Option ε) : Value × Except ε Visit :=
  match r.2 with
  | some e => ((settle (heldAt (leaves p v) r.1) p v).getD .null, .error e)
  | none => (settleInside (answerAt (leaves p v) r.1) p v, .ok (nodeAnswer (answerAt (leaves p v) r.1) p v))

def walkedItems (p : KeyPath) (i : Nat) (items : List Value) (r : List Visit × Option ε) :
    List Value × Option ε :=
  match r.2 with
  | some e => (settleItems (heldAt (itemLeaves p i items) r.1) p i items, some e)
  | none => (settleItems (answerAt (itemLeaves p i items) r.1) p i items, none)

/-- What the walk of object fields gives, from the answers their leaves got: the
fields as changed, with the removed ones still in place, and the removed keys. -/
def walkedFields (p : KeyPath) (fields : List (String × Value)) (r : List Visit × Option ε) :
    List (String × Value) × List String × Option ε :=
  match r.2 with
  | some e => (settleFields (heldAt (fieldLeaves p fields) r.1) p fields,
      removedKeys (answerAt (fieldLeaves p fields) r.1) p fields, some e)
  | none => (keptFields (answerAt (fieldLeaves p fields) r.1) p fields,
      removedKeys (answerAt (fieldLeaves p fields) r.1) p fields, none)

theorem outcome_nodeAnswer (d : KeyPath → Visit) (p : KeyPath) (v : Value) :
    (nodeAnswer d p v).outcome (settleInside d p v) = settle d p v := by
  cases v <;> rfl

theorem settleInside_of_settle_none {d : KeyPath → Visit} {p : KeyPath} {v : Value}
    (h : settle d p v = none) : settleInside d p v = v := by
  cases v with
  | str l => rfl
  | arr _ | obj _ | null | bool _ | num _ => simp [settle] at h

theorem settleItem_nodeAnswer (d : KeyPath → Visit) (p : KeyPath) (v : Value) :
    settleItem (settleInside d p v) (nodeAnswer d p v) = (settle d p v).getD .null := by
  rw [settleItem_eq, outcome_nodeAnswer]

/-! ### Visiting leaves in order -/

section Lawful

variable [LawfulMonad m] (visit : KeyPath → String → m (Except ε Visit))

theorem visitAll_aligned (ls : List (KeyPath × String)) :
    SatisfiesM (Aligned ls) (visitAll visit ls) := by
  induction ls with
  | nil => exact SatisfiesM.pure rfl
  | cons x ls ih =>
    obtain ⟨q, l⟩ := x
    refine SatisfiesM.bind SatisfiesM.trivial fun res _ => ?_
    cases res with
    | error e => exact SatisfiesM.pure (by simp [Aligned])
    | ok a =>
      refine ih.bind fun r hr => SatisfiesM.pure ?_
      obtain ⟨answers, failure⟩ := r
      cases failure <;> simpa [Aligned] using hr

/-- Visiting two lists of leaves one after the other: the second is visited only
when the first gets through. -/
theorem visitAll_append (ls₁ ls₂ : List (KeyPath × String)) :
    visitAll visit (ls₁ ++ ls₂) = visitAll visit ls₁ >>= fun r₁ =>
      match r₁.2 with
      | some e => pure (r₁.1, some e)
      | none => (fun r₂ => (r₁.1 ++ r₂.1, r₂.2)) <$> visitAll visit ls₂ := by
  induction ls₁ with
  | nil => simp [visitAll]
  | cons x ls ih =>
    obtain ⟨q, l⟩ := x
    simp only [List.cons_append, visitAll, bind_assoc]
    congr 1
    funext res
    cases res with
    | error e => simp
    | ok a =>
      simp only [ih, bind_assoc, pure_bind]
      congr 1
      funext r₁
      obtain ⟨answers, failure⟩ := r₁
      cases failure <;> simp

/-- Each answer `visitAll` gives satisfies what each call promises for its
leaf; a leaf without an answer counts as kept. -/
theorem visitAll_answerAt {P : KeyPath → String → Visit → Prop}
    (hvisit : ∀ q l, SatisfiesM (fun res => ∀ a, res = .ok a → P q l a) (visit q l)) (ls : List (KeyPath × String)) :
    SatisfiesM (fun r : List Visit × Option ε => ∀ q, answerAt ls r.1 q = .keep ∨
      ∃ l, (q, l) ∈ ls ∧ P q l (answerAt ls r.1 q)) (visitAll visit ls) := by
  induction ls with
  | nil => exact SatisfiesM.pure fun q => .inl rfl
  | cons x ls ih =>
    obtain ⟨q', l'⟩ := x
    refine SatisfiesM.bind (hvisit q' l') fun res hres => ?_
    cases res with
    | error e => exact SatisfiesM.pure fun q => .inl (answerAt_nil_right _ q)
    | ok a =>
      refine ih.bind fun r hr => SatisfiesM.pure fun q => ?_
      by_cases hq : q' = q
      · subst hq
        exact .inr ⟨l', List.mem_cons_self, by simpa [answerAt] using hres a rfl⟩
      · simp only [answerAt, hq, if_false]
        rcases hr q with hkeep | ⟨l, hl, hP⟩
        · exact .inl hkeep
        · exact .inr ⟨l, List.mem_cons_of_mem _ hl, hP⟩

/-! ### Leaves of siblings -/

theorem not_mem_of_pairwise_apart {ls₁ ls₂ : List (KeyPath × String)}
    (h : ((ls₁ ++ ls₂).map Prod.fst).Pairwise KeyPath.Apart) {q : KeyPath} {l : String}
    (hq : (q, l) ∈ ls₂) : q ∉ ls₁.map Prod.fst := by
  rw [List.map_append, List.pairwise_append] at h
  intro hq₁
  exact (h.2.2 q hq₁ q (List.mem_map_of_mem (f := Prod.fst) hq)).1 (List.prefix_refl q)

/-- A leaf strictly inside the child at `s` pends on no path through another step. -/
theorem pendsOn_inside {p : KeyPath} {s t : Step} (hst : s ≠ t) {v : Value} (hv : v.NodupKeys)
    (hleaf : ∀ l, v ≠ .str l) {q : KeyPath} {l : String} (hq : (q, l) ∈ leaves (p ++ [s]) v)
    (r' : KeyPath) : pendsOn (p ++ t :: r') q = false := by
  obtain ⟨r, rfl, hr⟩ := get?_of_mem_leaves _ v hv hq
  have hne : r ≠ [] := by
    rintro rfl
    exact hleaf l (Option.some.inj hr)
  simpa using pendsOn_below (p := p) hst hne r'

theorem pendsOn_later_item {p : KeyPath} {i : Nat} {item : Value} (hitem : item.NodupKeys)
    {rest : List Value} (hrest : ItemsNodupKeys rest) {q f : KeyPath} {l l' : String}
    (hq : (q, l) ∈ leaves (p ++ [.index i]) item) (hf : (f, l') ∈ itemLeaves p (i + 1) rest) :
    pendsOn f q = false := by
  obtain ⟨j, c, r', -, rfl, -⟩ := get?_of_mem_itemLeaves p (i + 1) rest hrest hf
  have hst : Step.index i ≠ .index (i + 1 + j) := by simp; omega
  by_cases hleaf : ∃ s, item = .str s
  · obtain ⟨s, rfl⟩ := hleaf
    simp only [leaves, List.mem_singleton, Prod.mk.injEq] at hq
    rw [hq.1]
    exact pendsOn_index _ p i
  · exact pendsOn_inside hst hitem (fun s h => hleaf ⟨s, h⟩) hq r'

/-- A leaf of an earlier object field pends on a leaf of a later field exactly
when it is the field's value itself. -/
theorem pendsOn_later_field {p : KeyPath} {k : String} {c : Value} (hc : c.NodupKeys)
    {rest : List (String × Value)} (hrest : FieldsNodupKeys rest) (hk : k ∉ Fields.keys rest)
    {q f : KeyPath} {l l' : String} (hq : (q, l) ∈ leaves (p ++ [.key k]) c)
    (hf : (f, l') ∈ fieldLeaves p rest) : pendsOn f q = true ↔ ∃ s, c = .str s := by
  obtain ⟨k', c', r', hc', rfl, -⟩ := get?_of_mem_fieldLeaves p rest hrest hf
  have hst : Step.key k ≠ .key k' := by
    intro h
    cases h
    exact hk (List.mem_map_of_mem (f := Prod.fst) hc')
  by_cases hleaf : ∃ s, c = .str s
  · obtain ⟨s, rfl⟩ := hleaf
    simp only [leaves, List.mem_singleton, Prod.mk.injEq] at hq
    simp [hq.1, pendsOn_key (List.prefix_append p _) k]
  · simpa [pendsOn_inside hst hc (fun s h => hleaf ⟨s, h⟩) hq r'] using hleaf

theorem any_pendsOn_eq_false {ls : List (KeyPath × String)} (n : Nat) {q : KeyPath}
    (h : ∀ f l, (f, l) ∈ ls → pendsOn f q = false) : (ls[n]?).any (fun f => pendsOn f.1 q) = false := by
  cases hget : ls[n]? with
  | none => rfl
  | some f => simpa using h f.1 f.2 (List.mem_of_getElem? hget)

theorem settle_isSome_of_keep {d : KeyPath → Visit} (p : KeyPath) {v : Value}
    (h : ∀ l, v = .str l → d p = .keep) : (settle d p v).isSome := by
  by_cases hleaf : ∃ l, v = .str l
  · obtain ⟨l, rfl⟩ := hleaf
    simp [settle, h l rfl, Visit.outcome]
  · exact settle_isSome_of_ne_str p fun l hl => hleaf ⟨l, hl⟩

theorem removedKeys_of_keep {d : KeyPath → Visit} (p : KeyPath) (fields : List (String × Value))
    (h : ∀ q l, (q, l) ∈ fieldLeaves p fields → d q = .keep) : removedKeys d p fields = [] := by
  induction fields with
  | nil => rfl
  | cons kv rest ih =>
    obtain ⟨k, v⟩ := kv
    have hv := settle_of_keep (p ++ [.key k]) v fun q l hq => h q l (List.mem_append_left _ hq)
    simp only [removedKeys, hv]
    exact ih fun q l hq => h q l (List.mem_append_right _ hq)

theorem removedKeys_congr {d d' : KeyPath → Visit} (p : KeyPath) (fields : List (String × Value))
    (h : ∀ q l, (q, l) ∈ fieldLeaves p fields → d q = d' q) : removedKeys d p fields = removedKeys d' p fields := by
  induction fields with
  | nil => rfl
  | cons kv rest ih =>
    obtain ⟨k, v⟩ := kv
    have hv := settle_congr (p ++ [.key k]) v fun q l hq => h q l (List.mem_append_left _ hq)
    simp only [removedKeys, hv, ih fun q l hq => h q l (List.mem_append_right _ hq)]

theorem keptFields_congr {d d' : KeyPath → Visit} (p : KeyPath) (fields : List (String × Value))
    (h : ∀ q l, (q, l) ∈ fieldLeaves p fields → d q = d' q) : keptFields d p fields = keptFields d' p fields := by
  induction fields with
  | nil => rfl
  | cons kv rest ih =>
    obtain ⟨k, v⟩ := kv
    have hv := settle_congr (p ++ [.key k]) v fun q l hq => h q l (List.mem_append_left _ hq)
    simp only [keptFields, hv, ih fun q l hq => h q l (List.mem_append_right _ hq)]

/-- A field's value when the walk failed in a later field: its leaf, if it is
one, stays unless replaced, since the removal was pending. -/
theorem settle_heldAt_of_later_failure {p : KeyPath} {k : String} {c : Value} (hc : c.NodupKeys)
    {rest : List (String × Value)} (hrest : FieldsNodupKeys rest) (hk : k ∉ Fields.keys rest)
    {as₁ as₂ : List Visit} (h₁ : as₁.length = (leaves (p ++ [.key k]) c).length)
    (h₂ : as₂.length < (fieldLeaves p rest).length) :
    settle (heldAt (leaves (p ++ [.key k]) c ++ fieldLeaves p rest) (as₁ ++ as₂)) (p ++ [.key k]) c =
      some ((settle (answerAt (leaves (p ++ [.key k]) c) as₁) (p ++ [.key k]) c).getD c) := by
  have hfail : ∃ f l', (fieldLeaves p rest)[as₂.length]? = some (f, l') :=
    ⟨_, _, List.getElem?_eq_getElem h₂⟩
  obtain ⟨f, l', hf⟩ := hfail
  have hmem : (f, l') ∈ fieldLeaves p rest := List.mem_of_getElem? hf
  by_cases hleaf : ∃ s, c = .str s
  · obtain ⟨s, rfl⟩ := hleaf
    have hq : (p ++ [.key k], s) ∈ leaves (p ++ [.key k]) (.str s) := by simp [leaves]
    have hpend := (pendsOn_later_field hc hrest hk hq hmem).2 ⟨s, rfl⟩
    simp only [settle]
    rw [heldAt_append_of_mem h₁ (List.mem_map_of_mem (f := Prod.fst) hq), hf]
    cases answerAt (leaves (p ++ [.key k]) (.str s)) as₁ (p ++ [.key k]) <;>
      simp [Visit.heldIf, Visit.outcome, hpend]
  · have hsome := settle_isSome_of_ne_str (d := answerAt (leaves (p ++ [.key k]) c) as₁) (p ++ [.key k])
      fun s hs => hleaf ⟨s, hs⟩
    obtain ⟨w, hw⟩ := Option.isSome_iff_exists.1 hsome
    rw [hw, Option.getD_some, ← hw]
    refine settle_congr _ c fun q l hq => ?_
    rw [heldAt_append_of_mem h₁ (List.mem_map_of_mem (f := Prod.fst) hq), hf]
    have hnot : pendsOn f q = false := by
      simpa [hleaf] using mt (pendsOn_later_field hc hrest hk hq hmem).1
    simp [hnot]

/-! ### Walking -/

variable {visit}

mutual

theorem walkNode_eq (p : KeyPath) (v : Value) (hv : v.NodupKeys) :
    walkNode visit p v = walkedNode p v <$> visitAll visit (leaves p v) := by
  cases v with
  | str l =>
    simp only [walkNode, leaves, visitAll, map_bind]
    congr 1
    funext res
    cases res with
    | error e => simp [walkedNode, heldAt_nil_right, settle, Visit.outcome]
    | ok a => simp [walkedNode, settleInside, nodeAnswer, leaves]
  | arr items =>
    rw [walkNode, walkItems_eq p 0 items hv, bind_map_left, map_eq_pure_bind]
    simp only [leaves]
    congr 1
    funext r
    obtain ⟨answers, failure⟩ := r
    cases failure <;> rfl
  | obj fields =>
    rw [walkNode, walkFields_eq p fields hv.2 hv.1, bind_map_left, map_eq_pure_bind]
    simp only [leaves]
    congr 1
    funext r
    obtain ⟨answers, failure⟩ := r
    cases failure with
    | some e => rfl
    | none =>
      simp only [walkedFields, walkedNode, foldl_erase_keptFields p hv.1]
      rfl
  | null | bool _ | num _ => simp [walkNode, leaves, visitAll, walkedNode, settleInside, nodeAnswer, settle]

theorem walkItems_eq (p : KeyPath) (i : Nat) (items : List Value) (hitems : ItemsNodupKeys items) :
    walkItems visit p i items = walkedItems p i items <$> visitAll visit (itemLeaves p i items) := by
  cases items with
  | nil => simp [walkItems, walkedItems, itemLeaves, visitAll, settleItems]
  | cons item rest =>
    obtain ⟨hitem, hrest⟩ := hitems
    have hn := walkNode_eq (p ++ [.index i]) item hitem
    have happart : ((leaves (p ++ [.index i]) item ++ itemLeaves p (i + 1) rest).map Prod.fst).Pairwise
        KeyPath.Apart := itemLeaves_pairwise_apart p i (item :: rest) ⟨hitem, hrest⟩
    have hdisj : ∀ {q l}, (q, l) ∈ itemLeaves p (i + 1) rest →
        q ∉ (leaves (p ++ [.index i]) item).map Prod.fst := not_mem_of_pairwise_apart happart
    rw [walkItems, hn, itemLeaves, visitAll_append, map_bind, bind_map_left]
    refine SatisfiesM.bind_congr (visitAll_aligned visit _) fun r₁ h₁ => ?_
    obtain ⟨as₁, f₁⟩ := r₁
    cases f₁ with
    | some e =>
      simp only [Aligned] at h₁
      simp only [walkedNode, walkedItems, map_pure, settleItems, itemLeaves]
      rw [funext (heldAt_append_short h₁ (itemLeaves p (i + 1) rest)),
        settleItems_of_keep p (i + 1) rest fun q l hq => heldAt_of_not_mem (hdisj hq) as₁]
    | none =>
      simp only [Aligned] at h₁
      simp only [walkedNode, settleItem_nodeAnswer]
      rw [walkItems_eq p (i + 1) rest hrest, bind_map_left, Functor.map_map, map_eq_pure_bind]
      refine SatisfiesM.bind_congr (visitAll_aligned visit _) fun r₂ _ => ?_
      obtain ⟨as₂, f₂⟩ := r₂
      have hfirst : ∀ q l, (q, l) ∈ leaves (p ++ [.index i]) item →
          answerAt (leaves (p ++ [.index i]) item ++ itemLeaves p (i + 1) rest) (as₁ ++ as₂) q =
            answerAt (leaves (p ++ [.index i]) item) as₁ q :=
        fun q l hq => answerAt_append_of_mem h₁ (List.mem_map_of_mem (f := Prod.fst) hq) _ _
      cases f₂ with
      | none =>
        simp only [walkedItems, settleItems, itemLeaves]
        rw [settle_congr _ item hfirst, settleItems_congr p (i + 1) rest fun q l hq =>
          answerAt_append_of_not_mem h₁ (hdisj hq) _ _]
      | some e =>
        simp only [walkedItems, settleItems, itemLeaves]
        have hheld : ∀ q l, (q, l) ∈ leaves (p ++ [.index i]) item →
            heldAt (leaves (p ++ [.index i]) item ++ itemLeaves p (i + 1) rest) (as₁ ++ as₂) q =
              answerAt (leaves (p ++ [.index i]) item) as₁ q := fun q l hq => by
          rw [heldAt_append_of_mem h₁ (List.mem_map_of_mem (f := Prod.fst) hq),
            any_pendsOn_eq_false _ fun f l' hf => pendsOn_later_item hitem hrest hq hf, Visit.heldIf_false]
        rw [settle_congr _ item hheld, settleItems_congr p (i + 1) rest fun q l hq =>
          heldAt_append_of_not_mem h₁ (hdisj hq) _ _]

theorem walkFields_eq (p : KeyPath) (fields : List (String × Value)) (hfields : FieldsNodupKeys fields)
    (hkeys : (Fields.keys fields).Nodup) :
    walkFields visit p fields = walkedFields p fields <$> visitAll visit (fieldLeaves p fields) := by
  cases fields with
  | nil => simp [walkFields, walkedFields, fieldLeaves, visitAll, keptFields, removedKeys]
  | cons kv rest =>
    obtain ⟨k, c⟩ := kv
    obtain ⟨hc, hrest⟩ := hfields
    simp only [Fields.keys_cons, List.nodup_cons] at hkeys
    have hn := walkNode_eq (p ++ [.key k]) c hc
    have happart : ((leaves (p ++ [.key k]) c ++ fieldLeaves p rest).map Prod.fst).Pairwise
        KeyPath.Apart := fieldLeaves_pairwise_apart p ((k, c) :: rest) ⟨hc, hrest⟩
          (by simpa [Fields.keys_cons] using hkeys)
    have hdisj : ∀ {q l}, (q, l) ∈ fieldLeaves p rest →
        q ∉ (leaves (p ++ [.key k]) c).map Prod.fst := not_mem_of_pairwise_apart happart
    rw [walkFields, hn, fieldLeaves, visitAll_append, map_bind, bind_map_left]
    refine SatisfiesM.bind_congr (visitAll_aligned visit _) fun r₁ h₁ => ?_
    obtain ⟨as₁, f₁⟩ := r₁
    cases f₁ with
    | some e =>
      simp only [Aligned] at h₁
      have hshort : ∀ s, c = .str s → as₁ = [] := by
        rintro s rfl
        simpa [leaves] using h₁
      have hheld := funext (heldAt_append_short h₁ (fieldLeaves p rest))
      have hans := funext (answerAt_append_short h₁.le (fieldLeaves p rest))
      have hsome : (settle (heldAt (leaves (p ++ [.key k]) c) as₁) (p ++ [.key k]) c).isSome :=
        settle_isSome_of_keep _ fun s hs => by rw [hshort s hs, heldAt_nil_right]
      obtain ⟨w, hw⟩ := Option.isSome_iff_exists.1 hsome
      have hsome' : (settle (answerAt (leaves (p ++ [.key k]) c) as₁) (p ++ [.key k]) c).isSome :=
        settle_isSome_of_keep _ fun s hs => by rw [hshort s hs, answerAt_nil_right]
      obtain ⟨w', hw'⟩ := Option.isSome_iff_exists.1 hsome'
      simp only [walkedNode, walkedFields, map_pure, fieldLeaves, settleFields, removedKeys, hheld, hans, hw,
        hw', Option.getD_some]
      rw [settleFields_of_keep p rest fun q l hq => heldAt_of_not_mem (hdisj hq) as₁,
        removedKeys_of_keep p rest fun q l hq => answerAt_of_not_mem (hdisj hq) as₁]
    | none =>
      simp only [Aligned] at h₁
      simp only [walkedNode]
      rw [walkFields_eq p rest hrest hkeys.2, bind_map_left, Functor.map_map, map_eq_pure_bind]
      refine SatisfiesM.bind_congr (visitAll_aligned visit _) fun r₂ h₂ => ?_
      obtain ⟨as₂, f₂⟩ := r₂
      have hfirst : ∀ q l, (q, l) ∈ leaves (p ++ [.key k]) c →
          answerAt (leaves (p ++ [.key k]) c ++ fieldLeaves p rest) (as₁ ++ as₂) q =
            answerAt (leaves (p ++ [.key k]) c) as₁ q :=
        fun q l hq => answerAt_append_of_mem h₁ (List.mem_map_of_mem (f := Prod.fst) hq) _ _
      have hlater : ∀ q l, (q, l) ∈ fieldLeaves p rest →
          answerAt (leaves (p ++ [.key k]) c ++ fieldLeaves p rest) (as₁ ++ as₂) q =
            answerAt (fieldLeaves p rest) as₂ q := fun q l hq => answerAt_append_of_not_mem h₁ (hdisj hq) _ _
      have hout := outcome_nodeAnswer (answerAt (leaves (p ++ [.key k]) c) as₁) (p ++ [.key k]) c
      cases f₂ with
      | none =>
        simp only [walkedFields, fieldLeaves, keptFields, removedKeys, settle_congr _ c hfirst,
          keptFields_congr p rest hlater, removedKeys_congr p rest hlater]
        cases ha : nodeAnswer (answerAt (leaves (p ++ [.key k]) c) as₁) (p ++ [.key k]) c with
        | keep | replace _ =>
          simp only [ha, Visit.outcome] at hout
          simp [← hout]
        | remove =>
          simp only [ha, Visit.outcome] at hout
          simp [← hout, settleInside_of_settle_none hout.symm]
      | some e =>
        simp only [Aligned] at h₂
        simp only [walkedFields, fieldLeaves, settleFields, settle_heldAt_of_later_failure hc hrest hkeys.1 h₁ h₂,
          settleFields_congr p rest fun q l hq => heldAt_append_of_not_mem h₁ (hdisj hq) _ _, removedKeys,
          settle_congr _ c hfirst, removedKeys_congr p rest hlater]
        cases ha : nodeAnswer (answerAt (leaves (p ++ [.key k]) c) as₁) (p ++ [.key k]) c with
        | keep | replace _ =>
          simp only [ha, Visit.outcome] at hout
          simp [← hout]
        | remove =>
          simp only [ha, Visit.outcome] at hout
          simp [← hout, settleInside_of_settle_none hout.symm]

end

end Lawful

/-- A walk is `visitAll` over the leaves, followed by settling the tree with the
answers: each leaf's answer when every call succeeds, the held answers when one
fails. -/
theorem walk_eq_visitAll [LawfulMonad m] (visit : KeyPath → String → m (Except ε Visit))
    (t : Value) (ht : t.NodupKeys) :
    walk visit t = (fun r : List Visit × Option ε => ((match r.2 with
      | none => (settle (answerAt (leaves [] t) r.1) [] t).getD .null
      | some _ => (settle (heldAt (leaves [] t) r.1) [] t).getD .null), r.2)) <$>
      visitAll visit (leaves [] t) := by
  rw [walk, walkNode_eq [] t ht, bind_map_left, map_eq_pure_bind]
  congr 1
  funext r
  obtain ⟨answers, failure⟩ := r
  cases failure with
  | some e => rfl
  | none => simp [walkedNode, settleItem_nodeAnswer]

/-- A walk calls its visitor once for each string leaf of the tree given, and
for nothing else, in pre-order and with the leaf's path, until the first
failure; what it makes of the tree depends on the answers alone. When every
call succeeds, each leaf's answer is applied at its place: kept, replaced, or
removed, which drops the key from its object, puts `null` in an array and
leaves `null` for the root. When a call fails, the answers given before it are
applied, except the removals of fields of the objects that enclose the failing
leaf. -/
theorem walk_visits_leaves_in_order [LawfulMonad m] (visit : KeyPath → String → m (Except ε Visit))
    (t : Value) (ht : t.NodupKeys) :
    walk visit t = (fun r : List Visit × Option ε => ((match r.2 with
      | none => (settle (answerAt (leaves [] t) r.1) [] t).getD .null
      | some _ => (settle (heldAt (leaves [] t) r.1) [] t).getD .null), r.2)) <$>
      visitAll visit (leaves [] t) ∧
    (∀ q l, (q, l) ∈ leaves [] t ↔ t.get? q = some (.str l)) ∧
    ((leaves [] t).map Prod.fst).Pairwise KeyPath.Apart := by
  refine ⟨walk_eq_visitAll visit t ht, fun q l => ⟨fun hq => ?_, fun hq => ?_⟩, leaves_pairwise_apart [] t ht⟩
  · obtain ⟨r, rfl, hr⟩ := get?_of_mem_leaves [] t ht hq
    simpa using hr
  · simpa using mem_leaves_of_get? hq []

end Order

/-- Replacing `x` by `42` and removing `drop`, in an object and in an array. -/
theorem walk_visits_leaves_in_order_replace_remove :
    (obj [("a", str "x"), ("b", str "drop"), ("list", arr [str "drop", str "x"])]).NodupKeys ∧
    walk (fun _ l => (pure (if l = "x" then .ok (.replace (.num (.int 42))) else if l = "drop" then .ok .remove
        else .ok .keep) : Id (Except Unit Visit)))
      (obj [("a", str "x"), ("b", str "drop"), ("list", arr [str "drop", str "x"])]) =
      (obj [("a", num (.int 42)), ("list", arr [null, num (.int 42)])], none) := by
  have ht : (obj [("a", str "x"), ("b", str "drop"), ("list", arr [str "drop", str "x"])]).NodupKeys := by
    simp [Fields.keys]
  refine ⟨ht, ?_⟩
  rw [(walk_visits_leaves_in_order _ _ ht).1]
  rfl

end Value

end LayeredConfig
