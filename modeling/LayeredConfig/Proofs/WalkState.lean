import LayeredConfig.Proofs.Walk

/-! Walks whose visitor also changes a world. The visitor runs in a state monad
over a world `σ`, below the list of notes, and each visit from a world with the
invariant `Inv` keeps it and takes the world a step along a reflexive and
transitive relation `R`; the whole walk then does the same, whether it succeeds
or stops at a failure. When the outcomes `ok`
allows for a leaf stay allowed as the world moves on along `R`, a walk that
succeeds rewrites the tree as the final world allows: each child's rewrite,
allowed in the world right after it, stays allowed in every later world. The
argument is that of `walk_rewrites`, with the world threaded through. -/

namespace LayeredConfig

namespace Value

section WalkState

variable {σ β ε α γ : Type}

/-- A computation of a walk with a world, run from its notes and a world. -/
def runAt (x : StateT (List β) (StateM σ) α) (s : List β) (w : σ) : (α × List β) × σ :=
  (x.run s).run w

@[simp] theorem runAt_pure (a : α) (s : List β) (w : σ) :
    runAt (pure a : StateT (List β) (StateM σ) α) s w = ((a, s), w) := rfl

@[simp] theorem runAt_bind (x : StateT (List β) (StateM σ) α) (f : α → StateT (List β) (StateM σ) γ)
    (s : List β) (w : σ) :
    runAt (x >>= f) s w = runAt (f (runAt x s w).1.1) (runAt x s w).1.2 (runAt x s w).2 := rfl

variable {Inv : σ → Prop} {R : σ → σ → Prop} {ok : σ → KeyPath → String → Option Value → Prop}
  {visit : KeyPath → String → StateT (List β) (StateM σ) (Except ε Visit)}
  {note : KeyPath → String → List β}

set_option linter.unusedSectionVars false

variable (hrefl : ∀ w, R w w) (htrans : ∀ {a b c}, R a b → R b c → R a c)
  (hmono : ∀ {w w'}, R w w' → ∀ p l o, ok w p l o → ok w' p l o)
  (hvisit : ∀ p l s w, Inv w → Inv (runAt (visit p l) s w).2 ∧ R w (runAt (visit p l) s w).2 ∧
    ∀ a, (runAt (visit p l) s w).1.1 = .ok a →
      ok (runAt (visit p l) s w).2 p l (a.outcome (.str l)) ∧ (runAt (visit p l) s w).1.2 = s ++ note p l)
include hrefl htrans hmono hvisit

mutual

/-- A walk of a node keeps the invariant and takes the world along `R`, and when
it succeeds it rewrites the node as the final world allows and notes its leaves
in pre-order. -/
theorem walkNode_along (p : KeyPath) (v : Value) (hv : v.NodupKeys) {s s' : List β} {w w' : σ}
    (hw : Inv w) {v' : Value} {ans : Except ε Visit}
    (hrun : runAt (walkNode visit p v) s w = (((v', ans), s'), w')) :
    Inv w' ∧ R w w' ∧ ∀ a, ans = .ok a → Rewrites (ok w') p v (a.outcome v') ∧ s' = s ++ notesOf note (leaves p v) := by
  cases v with
  | str l =>
    have hstep := hvisit p l s w hw
    rcases hx : runAt (visit p l) s w with ⟨⟨ans₀, s₀⟩, w₀⟩
    rw [hx] at hstep
    simp only [walkNode, runAt_bind, hx, runAt_pure, Prod.mk.injEq] at hrun
    obtain ⟨⟨⟨rfl, rfl⟩, rfl⟩, rfl⟩ := hrun
    obtain ⟨hinv, hR, hans⟩ := hstep
    refine ⟨hinv, hR, fun a ha => ?_⟩
    obtain ⟨hok, hs⟩ := hans a ha
    exact ⟨.leaf hok, by simpa [leaves] using hs⟩
  | arr items =>
    rcases hx : runAt (walkItems visit p 0 items) s w with ⟨⟨⟨items', failure⟩, s₀⟩, w₀⟩
    obtain ⟨hinv, hR, hitems⟩ := walkItems_along p 0 items hv hw hx
    simp only [walkNode, runAt_bind, hx, runAt_pure, Prod.mk.injEq] at hrun
    obtain ⟨⟨⟨rfl, rfl⟩, rfl⟩, rfl⟩ := hrun
    refine ⟨hinv, hR, fun a ha => ?_⟩
    cases failure with
    | some e => cases ha
    | none =>
      cases ha
      obtain ⟨hrw, hs⟩ := hitems rfl
      exact ⟨.arr hrw, by simpa [leaves] using hs⟩
  | obj fields =>
    obtain ⟨hkeys, hfields⟩ := hv
    rcases hx : runAt (walkFields visit p fields) s w with ⟨⟨⟨fields', removed, failure⟩, s₀⟩, w₀⟩
    obtain ⟨hinv, hR, hwalk⟩ := walkFields_along p fields hfields hkeys hw hx
    cases failure with
    | some e =>
      simp only [walkNode, runAt_bind, hx, runAt_pure, Prod.mk.injEq] at hrun
      obtain ⟨⟨⟨rfl, rfl⟩, rfl⟩, rfl⟩ := hrun
      exact ⟨hinv, hR, fun a ha => by cases ha⟩
    | none =>
      simp only [walkNode, runAt_bind, hx, runAt_pure, Prod.mk.injEq] at hrun
      obtain ⟨⟨⟨rfl, rfl⟩, rfl⟩, rfl⟩ := hrun
      refine ⟨hinv, hR, fun a ha => ?_⟩
      cases ha
      obtain ⟨hrw, hkeys', -, hs⟩ := hwalk rfl
      rw [Visit.outcome, Fields.foldl_erase_eq_filter (hkeys' ▸ hkeys)]
      exact ⟨.obj hrw, by simpa [leaves] using hs⟩
  | null | bool _ | num _ =>
    simp only [walkNode, runAt_pure, Prod.mk.injEq] at hrun
    obtain ⟨⟨⟨rfl, rfl⟩, rfl⟩, rfl⟩ := hrun
    refine ⟨hw, hrefl w, fun a ha => ?_⟩
    cases ha
    exact ⟨by first | exact .null | exact .bool | exact .num, by simp [leaves]⟩

/-- A walk of array items keeps the invariant and takes the world along `R`, and
when it succeeds it rewrites the items in place. -/
theorem walkItems_along (p : KeyPath) (i : Nat) (items : List Value) (hitems : ItemsNodupKeys items)
    {s s' : List β} {w w' : σ} (hw : Inv w) {items' : List Value} {failure : Option ε}
    (hrun : runAt (walkItems visit p i items) s w = (((items', failure), s'), w')) :
    Inv w' ∧ R w w' ∧ (failure = none →
      RewritesItems (ok w') p i items items' ∧ s' = s ++ notesOf note (itemLeaves p i items)) := by
  cases items with
  | nil =>
    simp only [walkItems, runAt_pure, Prod.mk.injEq] at hrun
    obtain ⟨⟨⟨rfl, rfl⟩, rfl⟩, rfl⟩ := hrun
    exact ⟨hw, hrefl w, fun _ => ⟨.nil, by simp [itemLeaves]⟩⟩
  | cons item rest =>
    obtain ⟨hitem, hrest⟩ := hitems
    rcases hx : runAt (walkNode visit (p ++ [.index i]) item) s w with ⟨⟨⟨item', answer⟩, s₁⟩, w₁⟩
    obtain ⟨hinv₁, hR₁, h₁⟩ := walkNode_along (p ++ [.index i]) item hitem hw hx
    cases answer with
    | error e =>
      simp only [walkItems, runAt_bind, hx, runAt_pure, Prod.mk.injEq] at hrun
      obtain ⟨⟨⟨rfl, rfl⟩, rfl⟩, rfl⟩ := hrun
      exact ⟨hinv₁, hR₁, fun h => by cases h⟩
    | ok a =>
      obtain ⟨hrw, hs₁⟩ := h₁ a rfl
      rcases hy : runAt (walkItems visit p (i + 1) rest) s₁ w₁ with ⟨⟨⟨rest', failure'⟩, s₂⟩, w₂⟩
      obtain ⟨hinv₂, hR₂, h₂⟩ := walkItems_along p (i + 1) rest hrest hinv₁ hy
      simp only [walkItems, runAt_bind, hx, hy, runAt_pure, Prod.mk.injEq] at hrun
      obtain ⟨⟨⟨rfl, rfl⟩, rfl⟩, rfl⟩ := hrun
      refine ⟨hinv₂, htrans hR₁ hR₂, fun hf => ?_⟩
      obtain ⟨hitems', hs₂⟩ := h₂ hf
      rw [settleItem_eq]
      exact ⟨.cons (Rewrites.mono (hmono hR₂) _ _ hrw) hitems', by simp [itemLeaves, hs₂, hs₁]⟩

/-- A walk of object fields keeps the invariant and takes the world along `R`,
and when it succeeds it rewrites the fields in order, keeps their keys and
removes only keys it has. -/
theorem walkFields_along (p : KeyPath) (fields : List (String × Value)) (hfields : FieldsNodupKeys fields)
    (hkeys : (Fields.keys fields).Nodup) {s s' : List β} {w w' : σ} (hw : Inv w)
    {fields' : List (String × Value)} {removed : List String} {failure : Option ε}
    (hrun : runAt (walkFields visit p fields) s w = (((fields', removed, failure), s'), w')) :
    Inv w' ∧ R w w' ∧ (failure = none →
      RewritesFields (ok w') p fields (fields'.filter (·.1 ∉ removed)) ∧
      Fields.keys fields' = Fields.keys fields ∧ (∀ k ∈ removed, k ∈ Fields.keys fields) ∧
      s' = s ++ notesOf note (fieldLeaves p fields)) := by
  cases fields with
  | nil =>
    simp only [walkFields, runAt_pure, Prod.mk.injEq] at hrun
    obtain ⟨⟨⟨rfl, rfl, rfl⟩, rfl⟩, rfl⟩ := hrun
    exact ⟨hw, hrefl w, fun _ => ⟨.nil, rfl, by simp, by simp [fieldLeaves]⟩⟩
  | cons kv rest =>
    obtain ⟨k, child⟩ := kv
    obtain ⟨hchild, hrest⟩ := hfields
    simp only [Fields.keys_cons, List.nodup_cons] at hkeys
    rcases hx : runAt (walkNode visit (p ++ [.key k]) child) s w with ⟨⟨⟨child', answer⟩, s₁⟩, w₁⟩
    obtain ⟨hinv₁, hR₁, h₁⟩ := walkNode_along (p ++ [.key k]) child hchild hw hx
    cases answer with
    | error e =>
      simp only [walkFields, runAt_bind, hx, runAt_pure, Prod.mk.injEq] at hrun
      obtain ⟨⟨⟨rfl, rfl, rfl⟩, rfl⟩, rfl⟩ := hrun
      exact ⟨hinv₁, hR₁, fun h => by cases h⟩
    | ok a =>
      obtain ⟨hrw, hs₁⟩ := h₁ a rfl
      rcases hy : runAt (walkFields visit p rest) s₁ w₁ with ⟨⟨⟨rest', removed', failure'⟩, s₂⟩, w₂⟩
      obtain ⟨hinv₂, hR₂, h₂⟩ := walkFields_along p rest hrest hkeys.2 hinv₁ hy
      have hrw' := Rewrites.mono (hmono hR₂) _ _ hrw
      cases a with
      | keep | replace _ =>
        simp only [walkFields, runAt_bind, hx, hy, runAt_pure, Prod.mk.injEq] at hrun
        obtain ⟨⟨⟨rfl, rfl, rfl⟩, rfl⟩, rfl⟩ := hrun
        refine ⟨hinv₂, htrans hR₁ hR₂, fun hf => ?_⟩
        obtain ⟨hrest', hkeys', hremoved, hs₂⟩ := h₂ hf
        have hk : k ∉ removed' := fun hk => hkeys.1 (hremoved k hk)
        refine ⟨?_, by simp [hkeys'], fun k' hk' => by simp [hremoved k' hk'],
          by simp [fieldLeaves, hs₂, hs₁]⟩
        rw [List.filter_cons_of_pos (by simpa using hk)]
        exact .keep hrw' hrest'
      | remove =>
        simp only [walkFields, runAt_bind, hx, hy, runAt_pure, Prod.mk.injEq] at hrun
        obtain ⟨⟨⟨rfl, rfl, rfl⟩, rfl⟩, rfl⟩ := hrun
        refine ⟨hinv₂, htrans hR₁ hR₂, fun hf => ?_⟩
        obtain ⟨hrest', hkeys', hremoved, hs₂⟩ := h₂ hf
        refine ⟨?_, by simp [hkeys'], ?_, by simp [fieldLeaves, hs₂, hs₁]⟩
        · rw [List.filter_cons_of_neg (by simp), filter_not_mem_cons (hkeys' ▸ hkeys.1)]
          exact .drop hrw' hrest'
        · intro k' hk'
          rcases List.mem_cons.1 hk' with rfl | hk'
          · simp
          · simp [hremoved k' hk']

end

/-- A whole walk keeps the invariant and takes the world along `R`, and when it
succeeds it rewrites the tree as the final world allows, a removed root becoming
`null`, and notes its leaves in pre-order. -/
theorem walk_along (tree : Value) (ht : tree.NodupKeys) {s s' : List β} {w w' : σ} (hw : Inv w)
    {tree' : Value} {failure : Option ε} (hrun : runAt (walk visit tree) s w = (((tree', failure), s'), w')) :
    Inv w' ∧ R w w' ∧ (failure = none → ∃ o, Rewrites (ok w') [] tree o ∧ tree' = o.getD .null ∧
      s' = s ++ notesOf note (leaves [] tree)) := by
  rcases hx : runAt (walkNode visit [] tree) s w with ⟨⟨⟨tree₀, answer⟩, s₀⟩, w₀⟩
  obtain ⟨hinv, hR, h⟩ := walkNode_along hrefl htrans hmono hvisit [] tree ht hw hx
  cases answer with
  | error e =>
    simp only [walk, runAt_bind, hx, runAt_pure, Prod.mk.injEq] at hrun
    obtain ⟨⟨⟨rfl, rfl⟩, rfl⟩, rfl⟩ := hrun
    exact ⟨hinv, hR, fun h => by cases h⟩
  | ok a =>
    simp only [walk, runAt_bind, hx, runAt_pure, Prod.mk.injEq] at hrun
    obtain ⟨⟨⟨rfl, rfl⟩, rfl⟩, rfl⟩ := hrun
    obtain ⟨hrw, hs⟩ := h a rfl
    exact ⟨hinv, hR, fun _ => ⟨a.outcome tree₀, hrw, settleItem_eq tree₀ a, hs⟩⟩

end WalkState

section Notes

variable {σ β ε : Type} {visit : KeyPath → String → StateT (List β) (StateM σ) (Except ε Visit)}
  {note : KeyPath → String → List β}
  (hnote : ∀ p l s w a, (runAt (visit p l) s w).1.1 = .ok a → (runAt (visit p l) s w).1.2 = s ++ note p l)
include hnote

/-- A walk of a node that gets to its end notes its leaves in pre-order, when
every visit that succeeds notes its leaf. -/
theorem walkNode_notes_of_visit (p : KeyPath) (v : Value) (hv : v.NodupKeys) {s s' : List β} {w w' : σ}
    {v' : Value} {a : Visit} (hrun : runAt (walkNode visit p v) s w = (((v', .ok a), s'), w')) :
    s' = s ++ notesOf note (leaves p v) := by
  have hall := @walkNode_along σ β ε (fun _ => True) (fun _ _ => True) (fun _ _ _ _ => True) visit note
    (fun _ => trivial) (fun _ _ => trivial) (fun _ _ _ _ h => h)
    (fun p l s w _ => ⟨trivial, trivial, fun a ha => ⟨trivial, hnote p l s w a ha⟩⟩)
  exact ((hall p v hv trivial hrun).2.2 a rfl).2

/-- A walk of fields that gets to its end removes only keys among them and notes
their leaves in pre-order, when every visit that succeeds notes its leaf. -/
theorem walkFields_notes_of_visit (p : KeyPath) (fields : List (String × Value))
    (hfields : FieldsNodupKeys fields) (hkeys : (Fields.keys fields).Nodup) {s s' : List β} {w w' : σ}
    {fields' : List (String × Value)} {removed : List String}
    (hrun : runAt (walkFields visit p fields) s w = (((fields', removed, none), s'), w')) :
    (∀ k ∈ removed, k ∈ Fields.keys fields) ∧ s' = s ++ notesOf note (fieldLeaves p fields) := by
  have hall := @walkFields_along σ β ε (fun _ => True) (fun _ _ => True) (fun _ _ _ _ => True) visit note
    (fun _ => trivial) (fun _ _ => trivial) (fun _ _ _ _ h => h)
    (fun p l s w _ => ⟨trivial, trivial, fun a ha => ⟨trivial, hnote p l s w a ha⟩⟩)
  obtain ⟨-, -, hremoved, hnoted⟩ := (hall p fields hfields hkeys trivial hrun).2.2 rfl
  exact ⟨hremoved, hnoted⟩

end Notes

section Decompose

variable {σ β ε : Type} (visit : KeyPath → String → StateT (List β) (StateM σ) (Except ε Visit))

theorem walkNode_obj_keep {p : KeyPath} {fields : List (String × Value)} {s s' : List β} {w w' : σ}
    {v' : Value} {a : Visit} (hrun : runAt (walkNode visit p (.obj fields)) s w = (((v', .ok a), s'), w')) :
    a = .keep := by
  rcases hx : runAt (walkFields visit p fields) s w with ⟨⟨⟨fields', removed, failure⟩, s₀⟩, w₀⟩
  cases failure <;>
    simp only [walkNode, runAt_bind, hx, runAt_pure, Prod.mk.injEq, reduceCtorEq, Except.ok.injEq,
      false_and, and_false] at hrun
  exact hrun.1.1.2.symm

/-- A walk of an object from its first field: the first field's node, walked
to its end, then the other fields, after which removed keys are erased if no
failure stopped the walk. -/
theorem walk_obj_cons {k : String} {v : Value} {rest : List (String × Value)} {s s₁ s₂ : List β}
    {w w₁ w₂ : σ} {v' : Value} {rest' : List (String × Value)} {removed : List String} {failure : Option ε}
    (hfirst : runAt (walkNode visit [.key k] v) s w = (((v', .ok .keep), s₁), w₁))
    (hrest : runAt (walkFields visit [] rest) s₁ w₁ = (((rest', removed, failure), s₂), w₂)) :
    runAt (walk visit (.obj ((k, v) :: rest))) s w =
      (((match failure with
          | some _ => .obj ((k, v') :: rest')
          | none => .obj (removed.foldl Fields.erase ((k, v') :: rest')), failure), s₂), w₂) := by
  have hfirst' : runAt (walkNode visit ([] ++ [.key k]) v) s w = (((v', .ok .keep), s₁), w₁) := hfirst
  cases failure <;> simp only [walk, walkNode, walkFields, runAt_bind, hfirst', hrest, runAt_pure, settleItem]

theorem walk_obj_cons_error {k : String} {v : Value} (rest : List (String × Value)) {s s₁ : List β}
    {w w₁ : σ} {v' : Value} {e : ε}
    (hfirst : runAt (walkNode visit [.key k] v) s w = (((v', .error e), s₁), w₁)) :
    runAt (walk visit (.obj ((k, v) :: rest))) s w = (((.obj ((k, v') :: rest), some e), s₁), w₁) := by
  have hfirst' : runAt (walkNode visit ([] ++ [.key k]) v) s w = (((v', .error e), s₁), w₁) := hfirst
  simp only [walk, walkNode, walkFields, runAt_bind, hfirst', runAt_pure]

end Decompose

end Value

end LayeredConfig
