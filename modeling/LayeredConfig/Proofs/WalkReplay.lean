import LayeredConfig.Proofs.WalkState

/-! Replaying a walk. A walk whose visitor changes a state runs once, from a
state to a final state `W`; a second visitor then walks the same tree from any
state that `Match`es. If every visit of the first run that succeeds, and is
followed by steps to `W`, gives the second visitor the same answer and notes
and leaves a state that still matches, then the second walk gives back the
first one's tree, answer and notes when the first succeeded. If moreover a
failing visit that ends the first run fails the same way in the second, this
holds of a first run that failed too. The first run's visits move its state
along a reflexive and transitive `R`, so every visit of a run is followed by
steps to the run's end. -/

namespace LayeredConfig

namespace Value

section WalkReplay

variable {σ β ε : Type}

/-- At every visit of the first visitor that succeeds and is followed by steps
to `W`, the second visitor, from any state that `Match`es, gives the same answer
and notes, and the state after it matches again. -/
def ReplaysSuccesses (visit₁ visit₂ : KeyPath → String → StateT (List β) (StateM σ) (Except ε Visit))
    (R : σ → σ → Prop) (W : σ) (Match : σ → Prop) : Prop :=
  ∀ p l s u a, (runAt (visit₁ p l) s u).1.1 = .ok a → R (runAt (visit₁ p l) s u).2 W →
    ∀ u', Match u' →
      (runAt (visit₂ p l) s u').1 = (runAt (visit₁ p l) s u).1 ∧ Match (runAt (visit₂ p l) s u').2

/-- At every visit of the first visitor that fails and ends in `W`, the second
visitor, from any state that `Match`es, fails the same way with the same notes. -/
def ReplaysFailures (visit₁ visit₂ : KeyPath → String → StateT (List β) (StateM σ) (Except ε Visit))
    (W : σ) (Match : σ → Prop) : Prop :=
  ∀ p l s u e, (runAt (visit₁ p l) s u).1.1 = .error e → (runAt (visit₁ p l) s u).2 = W →
    ∀ u', Match u' → (runAt (visit₂ p l) s u').1 = (runAt (visit₁ p l) s u).1

variable {visit₁ visit₂ : KeyPath → String → StateT (List β) (StateM σ) (Except ε Visit)}
  {R : σ → σ → Prop} {W : σ} {Match : σ → Prop}

set_option linter.unusedSectionVars false

variable (hrefl : ∀ u, R u u) (htrans : ∀ {a b c}, R a b → R b c → R a c)
  (hstep : ∀ p l s u, R u (runAt (visit₁ p l) s u).2)
  (hok : ReplaysSuccesses visit₁ visit₂ R W Match)

include hrefl htrans hstep hok

mutual

/-- A walk of a node moves the first run along `R`, and the second visitor
replays it: always when it succeeded and is followed by steps to `W`, and when
it failed and ended in `W` if failures replay too. -/
theorem walkNode_replay (p : KeyPath) (v : Value) {s s' : List β} {u u₁ : σ} {v' : Value}
    {ans : Except ε Visit} (hrun : runAt (walkNode visit₁ p v) s u = (((v', ans), s'), u₁)) :
    R u u₁ ∧
    (∀ a, ans = .ok a → R u₁ W → ∀ u', Match u' →
      ∃ u'', runAt (walkNode visit₂ p v) s u' = (((v', ans), s'), u'') ∧ Match u'') ∧
    (ReplaysFailures visit₁ visit₂ W Match → ∀ e, ans = .error e → u₁ = W → ∀ u', Match u' →
      ∃ u'', runAt (walkNode visit₂ p v) s u' = (((v', ans), s'), u'')) := by
  cases v with
  | str l =>
    rcases hx : runAt (visit₁ p l) s u with ⟨⟨ans₀, s₀⟩, u₀⟩
    have hR := hstep p l s u
    simp only [walkNode, runAt_bind, hx, runAt_pure, Prod.mk.injEq] at hrun hR
    obtain ⟨⟨⟨rfl, rfl⟩, rfl⟩, rfl⟩ := hrun
    refine ⟨hR, fun a ha hW u' hu' => ?_, fun hfail e he hW u' hu' => ?_⟩
    · obtain ⟨hsame, hmatch⟩ := hok p l s u a (by rw [hx]; exact ha) (by rw [hx]; exact hW) u' hu'
      rw [hx] at hsame
      exact ⟨(runAt (visit₂ p l) s u').2, by simp only [walkNode, runAt_bind, hsame, runAt_pure], hmatch⟩
    · have hsame := hfail p l s u e (by rw [hx]; exact he) (by rw [hx]; exact hW) u' hu'
      rw [hx] at hsame
      exact ⟨(runAt (visit₂ p l) s u').2, by simp only [walkNode, runAt_bind, hsame, runAt_pure]⟩
  | arr items =>
    rcases hx : runAt (walkItems visit₁ p 0 items) s u with ⟨⟨⟨items', failure⟩, s₀⟩, u₀⟩
    obtain ⟨hR, hS, hF⟩ := walkItems_replay p 0 items hx
    simp only [walkNode, runAt_bind, hx, runAt_pure, Prod.mk.injEq] at hrun
    obtain ⟨⟨⟨rfl, rfl⟩, rfl⟩, rfl⟩ := hrun
    refine ⟨hR, fun a ha hW u' hu' => ?_, fun hfail e he hW u' hu' => ?_⟩
    · cases failure with
      | some e => cases ha
      | none =>
        obtain ⟨u'', hrun', hmatch⟩ := hS rfl hW u' hu'
        exact ⟨u'', by simp only [walkNode, runAt_bind, hrun', runAt_pure], hmatch⟩
    · cases failure with
      | none => cases he
      | some e₀ =>
        obtain ⟨u'', hrun'⟩ := hF hfail ⟨e₀, rfl⟩ hW u' hu'
        exact ⟨u'', by simp only [walkNode, runAt_bind, hrun', runAt_pure]⟩
  | obj fields =>
    rcases hx : runAt (walkFields visit₁ p fields) s u with ⟨⟨⟨fields', removed, failure⟩, s₀⟩, u₀⟩
    obtain ⟨hR, hS, hF⟩ := walkFields_replay p fields hx
    cases failure with
    | some e₀ =>
      simp only [walkNode, runAt_bind, hx, runAt_pure, Prod.mk.injEq] at hrun
      obtain ⟨⟨⟨rfl, rfl⟩, rfl⟩, rfl⟩ := hrun
      refine ⟨hR, ?_, fun hfail e he hW u' hu' => ?_⟩
      · intro a ha
        cases ha
      obtain ⟨u'', hrun'⟩ := hF hfail ⟨e₀, rfl⟩ hW u' hu'
      exact ⟨u'', by simp only [walkNode, runAt_bind, hrun', runAt_pure]⟩
    | none =>
      simp only [walkNode, runAt_bind, hx, runAt_pure, Prod.mk.injEq] at hrun
      obtain ⟨⟨⟨rfl, rfl⟩, rfl⟩, rfl⟩ := hrun
      refine ⟨hR, fun a ha hW u' hu' => ?_, ?_⟩
      swap
      · intro hfail e he
        cases he
      obtain ⟨u'', hrun', hmatch⟩ := hS rfl hW u' hu'
      exact ⟨u'', by simp only [walkNode, runAt_bind, hrun', runAt_pure], hmatch⟩
  | null | bool _ | num _ =>
    simp only [walkNode, runAt_pure, Prod.mk.injEq] at hrun
    obtain ⟨⟨⟨rfl, rfl⟩, rfl⟩, rfl⟩ := hrun
    refine ⟨hrefl u, fun _ _ _ u' hu' => ⟨u', by simp only [walkNode, runAt_pure], hu'⟩, ?_⟩
    intro _ _ he
    cases he

/-- A walk of array items moves the first run along `R`, and the second
visitor replays it as a node's walk is replayed. -/
theorem walkItems_replay (p : KeyPath) (i : Nat) (items : List Value) {s s' : List β} {u u₁ : σ}
    {items' : List Value} {failure : Option ε}
    (hrun : runAt (walkItems visit₁ p i items) s u = (((items', failure), s'), u₁)) :
    R u u₁ ∧
    (failure = none → R u₁ W → ∀ u', Match u' →
      ∃ u'', runAt (walkItems visit₂ p i items) s u' = (((items', failure), s'), u'') ∧ Match u'') ∧
    (ReplaysFailures visit₁ visit₂ W Match → (∃ e, failure = some e) → u₁ = W → ∀ u', Match u' →
      ∃ u'', runAt (walkItems visit₂ p i items) s u' = (((items', failure), s'), u'')) := by
  cases items with
  | nil =>
    simp only [walkItems, runAt_pure, Prod.mk.injEq] at hrun
    obtain ⟨⟨⟨rfl, rfl⟩, rfl⟩, rfl⟩ := hrun
    exact ⟨hrefl u, fun _ _ u' hu' => ⟨u', by simp only [walkItems, runAt_pure], hu'⟩,
      fun _ he => by simp at he⟩
  | cons item rest =>
    rcases hx : runAt (walkNode visit₁ (p ++ [.index i]) item) s u with ⟨⟨⟨item', answer⟩, s₁⟩, u₁'⟩
    obtain ⟨hR₁, hS₁, hF₁⟩ := walkNode_replay (p ++ [.index i]) item hx
    cases answer with
    | error e =>
      simp only [walkItems, runAt_bind, hx, runAt_pure, Prod.mk.injEq] at hrun
      obtain ⟨⟨⟨rfl, rfl⟩, rfl⟩, rfl⟩ := hrun
      refine ⟨hR₁, ?_, fun hfail _ hW u' hu' => ?_⟩
      · intro h
        cases h
      obtain ⟨u'', hrun'⟩ := hF₁ hfail e rfl hW u' hu'
      exact ⟨u'', by simp only [walkItems, runAt_bind, hrun', runAt_pure]⟩
    | ok a =>
      rcases hy : runAt (walkItems visit₁ p (i + 1) rest) s₁ u₁' with ⟨⟨⟨rest', failure'⟩, s₂⟩, u₂⟩
      obtain ⟨hR₂, hS₂, hF₂⟩ := walkItems_replay p (i + 1) rest hy
      simp only [walkItems, runAt_bind, hx, hy, runAt_pure, Prod.mk.injEq] at hrun
      obtain ⟨⟨⟨rfl, rfl⟩, rfl⟩, rfl⟩ := hrun
      refine ⟨htrans hR₁ hR₂, fun hf hW u' hu' => ?_, fun hfail hf hW u' hu' => ?_⟩
      · obtain ⟨u₁'', hitem, hmatch₁⟩ := hS₁ a rfl (htrans hR₂ hW) u' hu'
        obtain ⟨u₂'', hrest, hmatch₂⟩ := hS₂ hf hW u₁'' hmatch₁
        exact ⟨u₂'', by simp only [walkItems, runAt_bind, hitem, hrest, runAt_pure], hmatch₂⟩
      · obtain ⟨u₁'', hitem, hmatch₁⟩ := hS₁ a rfl (hW ▸ hR₂) u' hu'
        obtain ⟨u₂'', hrest⟩ := hF₂ hfail hf hW u₁'' hmatch₁
        exact ⟨u₂'', by simp only [walkItems, runAt_bind, hitem, hrest, runAt_pure]⟩

/-- A walk of object fields moves the first run along `R`, and the second
visitor replays it as a node's walk is replayed. -/
theorem walkFields_replay (p : KeyPath) (fields : List (String × Value)) {s s' : List β} {u u₁ : σ}
    {fields' : List (String × Value)} {removed : List String} {failure : Option ε}
    (hrun : runAt (walkFields visit₁ p fields) s u = (((fields', removed, failure), s'), u₁)) :
    R u u₁ ∧
    (failure = none → R u₁ W → ∀ u', Match u' →
      ∃ u'', runAt (walkFields visit₂ p fields) s u' = (((fields', removed, failure), s'), u'') ∧
        Match u'') ∧
    (ReplaysFailures visit₁ visit₂ W Match → (∃ e, failure = some e) → u₁ = W → ∀ u', Match u' →
      ∃ u'', runAt (walkFields visit₂ p fields) s u' = (((fields', removed, failure), s'), u'')) := by
  cases fields with
  | nil =>
    simp only [walkFields, runAt_pure, Prod.mk.injEq] at hrun
    obtain ⟨⟨⟨rfl, rfl, rfl⟩, rfl⟩, rfl⟩ := hrun
    exact ⟨hrefl u, fun _ _ u' hu' => ⟨u', by simp only [walkFields, runAt_pure], hu'⟩,
      fun _ he => by simp at he⟩
  | cons kv rest =>
    obtain ⟨k, child⟩ := kv
    rcases hx : runAt (walkNode visit₁ (p ++ [.key k]) child) s u with ⟨⟨⟨child', answer⟩, s₁⟩, u₁'⟩
    obtain ⟨hR₁, hS₁, hF₁⟩ := walkNode_replay (p ++ [.key k]) child hx
    cases answer with
    | error e =>
      simp only [walkFields, runAt_bind, hx, runAt_pure, Prod.mk.injEq] at hrun
      obtain ⟨⟨⟨rfl, rfl, rfl⟩, rfl⟩, rfl⟩ := hrun
      refine ⟨hR₁, ?_, fun hfail _ hW u' hu' => ?_⟩
      · intro h
        cases h
      obtain ⟨u'', hrun'⟩ := hF₁ hfail e rfl hW u' hu'
      exact ⟨u'', by simp only [walkFields, runAt_bind, hrun', runAt_pure]⟩
    | ok a =>
      rcases hy : runAt (walkFields visit₁ p rest) s₁ u₁' with ⟨⟨⟨rest', removed', failure'⟩, s₂⟩, u₂⟩
      obtain ⟨hR₂, hS₂, hF₂⟩ := walkFields_replay p rest hy
      cases a
      all_goals
        simp only [walkFields, runAt_bind, hx, hy, runAt_pure, Prod.mk.injEq] at hrun
        obtain ⟨⟨⟨rfl, rfl, rfl⟩, rfl⟩, rfl⟩ := hrun
        refine ⟨htrans hR₁ hR₂, fun hf hW u' hu' => ?_, fun hfail hf hW u' hu' => ?_⟩
        · obtain ⟨u₁'', hitem, hmatch₁⟩ := hS₁ _ rfl (htrans hR₂ hW) u' hu'
          obtain ⟨u₂'', hrest, hmatch₂⟩ := hS₂ hf hW u₁'' hmatch₁
          exact ⟨u₂'', by simp only [walkFields, runAt_bind, hitem, hrest, runAt_pure], hmatch₂⟩
        · obtain ⟨u₁'', hitem, hmatch₁⟩ := hS₁ _ rfl (hW ▸ hR₂) u' hu'
          obtain ⟨u₂'', hrest⟩ := hF₂ hfail hf hW u₁'' hmatch₁
          exact ⟨u₂'', by simp only [walkFields, runAt_bind, hitem, hrest, runAt_pure]⟩

end

/-- A whole walk moves the first run along `R`, and the second visitor replays
it: always when it succeeded and ended in `W` or before, and when it failed and
ended in `W` if failures replay too. -/
theorem walk_replay (tree : Value) {s s' : List β} {u u₁ : σ} {tree' : Value} {failure : Option ε}
    (hrun : runAt (walk visit₁ tree) s u = (((tree', failure), s'), u₁)) :
    R u u₁ ∧
    (failure = none → R u₁ W → ∀ u', Match u' →
      ∃ u'', runAt (walk visit₂ tree) s u' = (((tree', failure), s'), u'') ∧ Match u'') ∧
    (ReplaysFailures visit₁ visit₂ W Match → (∃ e, failure = some e) → u₁ = W → ∀ u', Match u' →
      ∃ u'', runAt (walk visit₂ tree) s u' = (((tree', failure), s'), u'')) := by
  rcases hx : runAt (walkNode visit₁ [] tree) s u with ⟨⟨⟨tree₀, answer⟩, s₀⟩, u₀⟩
  obtain ⟨hR, hS, hF⟩ := walkNode_replay hrefl htrans hstep hok [] tree hx
  cases answer with
  | error e =>
    simp only [walk, runAt_bind, hx, runAt_pure, Prod.mk.injEq] at hrun
    obtain ⟨⟨⟨rfl, rfl⟩, rfl⟩, rfl⟩ := hrun
    refine ⟨hR, ?_, fun hfail _ hW u' hu' => ?_⟩
    · intro h
      cases h
    obtain ⟨u'', hrun'⟩ := hF hfail e rfl hW u' hu'
    exact ⟨u'', by simp only [walk, runAt_bind, hrun', runAt_pure]⟩
  | ok a =>
    simp only [walk, runAt_bind, hx, runAt_pure, Prod.mk.injEq] at hrun
    obtain ⟨⟨⟨rfl, rfl⟩, rfl⟩, rfl⟩ := hrun
    refine ⟨hR, fun _ hW u' hu' => ?_, ?_⟩
    · obtain ⟨u'', hrun', hmatch⟩ := hS a rfl hW u' hu'
      exact ⟨u'', by simp only [walk, runAt_bind, hrun', runAt_pure], hmatch⟩
    · intro _ hf
      simp at hf

end WalkReplay

end Value

end LayeredConfig
