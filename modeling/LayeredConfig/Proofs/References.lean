import LayeredConfig.Proofs.Resolve

/-! When the references of the second pass do not interfere, their order does
not matter. A lookup walks down a trail of nodes from the root and stops where
its next token leads nowhere; an assignment at a node that exists changes the
tree at that node and below it only. So an assignment at a path off a lookup's
trail, and not below the node the lookup yields, leaves the lookup as it was.
If no reference's lookup touches another's target in this way, every lookup of
the second pass sees the tree the first pass left, the sequential result is
the simultaneous substitution of those lookups, and the assignments, at
pairwise apart targets, may come in any order. -/

namespace LayeredConfig

open scoped List

namespace Reference

/-- The step a token takes from a node: a key in an object, an index in an array. -/
def stepOf : Value → String → Option Step
  | .obj _, token => some (.key token)
  | .arr _, token => (index? token).map .index
  | _, _ => none

theorem follow_eq (v : Value) (token : String) : follow v token = (stepOf v token).bind v.child? := by
  cases v with
  | arr items => cases h : index? token <;> simp [follow, stepOf, h]
  | obj fields => rfl
  | null | bool _ | num _ | str _ => rfl

theorem stepOf_assignStep {v w : Value} {s : Step} {x : Option Value} (h : v.assignStep s x = some w) :
    stepOf w = stepOf v := by
  cases v <;> cases s <;> simp only [Value.assignStep, reduceCtorEq] at h
  case arr.index items i =>
    split at h
    · cases h; rfl
    · cases h
  case obj.key fields k => cases x <;> cases h <;> rfl

/-- The path down which tokens lead from a node, up to the node where the next
token leads nowhere. -/
def trail (v : Value) : List String → KeyPath
  | [] => []
  | token :: rest =>
    match stepOf v token with
    | none => []
    | some s =>
      match v.child? s with
      | none => []
      | some c => s :: trail c rest

theorem trail_cons_of_child? {v c : Value} {token : String} {s : Step} (hs : stepOf v token = some s)
    (hc : v.child? s = some c) (rest : List String) : trail v (token :: rest) = s :: trail c rest := by
  simp [trail, hs, hc]

theorem foldlM_follow_cons_of_child? {v c : Value} {token : String} {s : Step}
    (hs : stepOf v token = some s) (hc : v.child? s = some c) (rest : List String) :
    (token :: rest).foldlM follow v = rest.foldlM follow c := by
  simp [follow_eq, hs, hc]

/-- An assignment where a node exists, off the trail of a lookup and not below
the node the lookup yields, leaves the lookup and its trail as they were. -/
theorem follow_assign?_of_off_trail (tokens : List String) {v w : Value} {q : KeyPath}
    {o : Option Value} (hq : (v.get? q).isSome) (h : v.assign? q o = some w)
    (hoff : ¬ q <+: trail v tokens)
    (hend : tokens.foldlM follow v = none ∨ ¬ trail v tokens <+: q) :
    tokens.foldlM follow w = tokens.foldlM follow v ∧ trail w tokens = trail v tokens := by
  induction tokens generalizing v w q with
  | nil =>
    exact absurd List.nil_prefix (hend.resolve_left (by simp))
  | cons token rest ih =>
    cases q with
    | nil => exact absurd List.nil_prefix hoff
    | cons s q =>
      obtain ⟨x, -, hw⟩ := Option.bind_eq_some_iff.1 (Value.assign?_cons v s q o ▸ h)
      have hstep : stepOf w = stepOf v := stepOf_assignStep hw
      cases ht : stepOf v token with
      | none => simp [trail, follow_eq, hstep, ht]
      | some t =>
        by_cases hts : s = t
        · subst hts
          obtain ⟨c, hc, hcq⟩ := Value.isSome_get?_cons.1 hq
          rw [trail_cons_of_child? ht hc, List.cons_prefix_cons] at hoff
          rw [trail_cons_of_child? ht hc, foldlM_follow_cons_of_child? ht hc,
            List.cons_prefix_cons] at hend
          have hqne : q ≠ [] := by rintro rfl; exact hoff ⟨rfl, List.nil_prefix⟩
          rw [Value.assign?_cons_of_child? hc hqne] at h
          obtain ⟨c', hc', hw'⟩ := Option.bind_eq_some_iff.1 h
          have hwc : w.child? s = some c' := Value.child?_assignStep_self hw'
          have hwt : stepOf w token = some s := hstep ▸ ht
          obtain ⟨hfollow, htrail⟩ := ih hcq hc' (fun hp => hoff ⟨rfl, hp⟩)
            (hend.imp_right fun hp hp' => hp ⟨rfl, hp'⟩)
          rw [trail_cons_of_child? ht hc, trail_cons_of_child? hwt hwc, htrail,
            foldlM_follow_cons_of_child? ht hc, foldlM_follow_cons_of_child? hwt hwc, hfollow]
          exact ⟨rfl, rfl⟩
        · have hchild : w.child? t = v.child? t := Value.child?_assignStep_ne hw (Ne.symm hts)
          simp [trail, follow_eq, hstep, ht, hchild]

end Reference

namespace Value

open Resolver (Deferred)

/-- The path down which a reference leads in a tree: its lookup visits the node
at each prefix of it and stops at the last. The empty reference leads nowhere. -/
def trail (tree : Value) (reference : String) : KeyPath :=
  if reference.isEmpty then [] else Reference.trail tree (Reference.tokens reference)

/-- A lookup touches the node at a path when it visits it (reaches it, passes
through it or stops at it) or yields a container that holds it. The empty
reference touches nothing. -/
def Touches (tree : Value) (reference : String) (p : KeyPath) : Prop :=
  reference.isEmpty = false ∧
    (p <+: tree.trail reference ∨ (tree.lookup reference).isSome ∧ tree.trail reference <+: p)

theorem touches_congr {v w : Value} {reference : String} (p : KeyPath)
    (hl : v.lookup reference = w.lookup reference) (ht : v.trail reference = w.trail reference) :
    v.Touches reference p ↔ w.Touches reference p := by
  simp only [Touches, hl, ht]

/-- An assignment where a node exists that a lookup does not touch leaves the
lookup and its trail as they were. -/
theorem lookup_assign?_of_not_touches {v w : Value} {q : KeyPath} {o : Option Value}
    (hq : (v.get? q).isSome) (h : v.assign? q o = some w) {reference : String}
    (hnt : ¬ v.Touches reference q) :
    w.lookup reference = v.lookup reference ∧ w.trail reference = v.trail reference := by
  cases hempty : reference.isEmpty with
  | true => simp [lookup, trail, hempty]
  | false =>
    simp only [Touches, lookup, trail, hempty, Bool.false_eq_true, if_false, true_and] at hnt ⊢
    refine Reference.follow_assign?_of_off_trail _ hq h (fun hp => hnt (.inl hp)) ?_
    cases hfound : (Reference.tokens reference).foldlM Reference.follow v with
    | none => exact .inl rfl
    | some x => exact .inr fun hp => hnt (.inr ⟨by simp [hfound], hp⟩)

theorem assign_comm {v : Value} {p q : KeyPath} (hp : (v.get? p).isSome) (hq : (v.get? q).isSome)
    (hpq : KeyPath.Apart p q) (a b : Option Value) :
    ((v.assign p a).2.assign q b).2 = ((v.assign q b).2.assign p a).2 := by
  obtain ⟨w₁, h₁⟩ := Option.isSome_iff_exists.1 (assign?_isSome hp a)
  obtain ⟨w₂, h₂⟩ := Option.isSome_iff_exists.1 (assign?_isSome hq b)
  obtain ⟨w₁₂, h₁₂⟩ := Option.isSome_iff_exists.1
    (assign?_isSome (by rw [get?_assign?_of_apart h₁ hpq]; exact hq) b)
  obtain ⟨w₂₁, h₂₁⟩ := Option.isSome_iff_exists.1
    (assign?_isSome (by rw [get?_assign?_of_apart h₂ hpq.symm]; exact hp) a)
  have hcomm := assign?_comm hp hq hpq a b
  rw [h₁, h₂, Option.bind_some, Option.bind_some, h₁₂, h₂₁, Option.some.injEq] at hcomm
  rw [assign_snd_of_assign? h₁, assign_snd_of_assign? h₁₂, assign_snd_of_assign? h₂,
    assign_snd_of_assign? h₂₁, hcomm]

/-- Assigning fixed values at apart paths where nodes exist, the order does not matter. -/
theorem fillWith_perm (vals : Deferred → Option Value) {noted noted' : List Deferred}
    (hperm : noted.Perm noted') {tree : Value} (hpresent : ∀ d ∈ noted, (tree.get? d.target).isSome)
    (hapart : (noted.map Deferred.target).Pairwise KeyPath.Apart) :
    tree.fillWith (fun _ => vals) noted = tree.fillWith (fun _ => vals) noted' := by
  induction hperm generalizing tree with
  | nil => rfl
  | cons d _ ih =>
    rw [List.map_cons, List.pairwise_cons] at hapart
    simp only [fillWith_cons]
    refine ih (fun e he => ?_) hapart.2
    rw [get?_assign_of_apart _ (hapart.1 e.target (List.mem_map_of_mem he))]
    exact hpresent e (List.mem_cons_of_mem d he)
  | swap d e rest =>
    simp only [List.map_cons, List.pairwise_cons, List.mem_cons, forall_eq_or_imp] at hapart
    simp only [fillWith_cons]
    rw [assign_comm (hpresent e (by simp)) (hpresent d (by simp)) hapart.1.1]
  | trans h₁₂ _ ih₁ ih₂ =>
    rw [ih₁ hpresent hapart]
    exact ih₂ (fun d hd => hpresent d (h₁₂.mem_iff.2 hd))
      ((h₁₂.map _).pairwise hapart KeyPath.Apart.symm)

end Value

namespace Resolver

open Value

/-- No reference's lookup in the tree touches another reference's target. -/
def NonInterfering (tree : Value) (noted : List Deferred) : Prop :=
  noted.Pairwise fun d e => ¬ tree.Touches d.source e.target ∧ ¬ tree.Touches e.source d.target

/-- While each lookup to come agrees with its lookup in `T`, and no lookup in `T`
touches another reference's target, the second pass assigns what the lookups
give in `T`. -/
theorem fillDeferred_eq_fillWith_of_nonInterfering {T : Value} {noted : List Deferred}
    (hni : NonInterfering T noted) (hapart : (noted.map Deferred.target).Pairwise KeyPath.Apart)
    {tree : Value} (hpresent : ∀ d ∈ noted, (tree.get? d.target).isSome)
    (hsame : ∀ d ∈ noted,
      tree.lookup d.source = T.lookup d.source ∧ tree.trail d.source = T.trail d.source) :
    tree.fillDeferred noted = tree.fillWith (fun _ ref => T.lookup ref.source) noted := by
  induction noted generalizing tree with
  | nil => rfl
  | cons d rest ih =>
    rw [List.map_cons, List.pairwise_cons] at hapart
    rw [NonInterfering, List.pairwise_cons] at hni
    simp only [fillDeferred_eq_fillWith, fillWith_cons] at ih ⊢
    rw [(hsame d List.mem_cons_self).1]
    obtain ⟨w, hw⟩ := Option.isSome_iff_exists.1
      (assign?_isSome (hpresent d List.mem_cons_self) (T.lookup d.source))
    rw [assign_snd_of_assign? hw]
    refine ih hni.2 hapart.2 (fun e he => ?_) (fun e he => ?_)
    · rw [get?_assign?_of_apart hw (hapart.1 e.target (List.mem_map_of_mem he))]
      exact hpresent e (List.mem_cons_of_mem d he)
    · obtain ⟨hl, ht⟩ := hsame e (List.mem_cons_of_mem d he)
      have hnt : ¬ tree.Touches e.source d.target := by
        rw [touches_congr _ hl ht]
        exact (hni.1 e he).2
      obtain ⟨hl', ht'⟩ := lookup_assign?_of_not_touches (hpresent d List.mem_cons_self) hw hnt
      exact ⟨hl'.trans hl, ht'.trans ht⟩

/-- Non-interfering references, in any order, give the simultaneous substitution
of their lookups in the tree the first pass left. -/
theorem TargetsHold.fillDeferred_perm {T : Value} {noted noted' : List Deferred}
    (hold : TargetsHold T noted) (hni : NonInterfering T noted) (hperm : noted'.Perm noted) :
    T.fillDeferred noted' = T.fillWith (fun _ ref => T.lookup ref.source) noted := by
  have hpresent : ∀ d ∈ noted, (T.get? d.target).isSome := fun d hd => by simp [hold.holds d hd]
  have hpresent' : ∀ d ∈ noted', (T.get? d.target).isSome := fun d hd => hpresent d (hperm.subset hd)
  have hapart' : (noted'.map Deferred.target).Pairwise KeyPath.Apart :=
    (hperm.symm.map _).pairwise hold.apart KeyPath.Apart.symm
  have hni' : NonInterfering T noted' := hni.perm hperm.symm fun h => ⟨h.2, h.1⟩
  rw [fillDeferred_eq_fillWith_of_nonInterfering hni' hapart' hpresent' fun _ _ => ⟨rfl, rfl⟩]
  exact fillWith_perm (fun ref => T.lookup ref.source) hperm hpresent' hapart'

variable {m : Type → Type} [Monad m] [LawfulMonad m] [Host m]

/-- After a first pass that succeeds, on any host, if no reference's lookup in
the walked tree touches another reference's target, the second pass gives the
simultaneous substitution of the lookups in the walked tree, whatever the order
of the references. -/
theorem fillDeferred_eq_simultaneous (r : Resolver) (tree : Value) (ht : tree.NodupKeys) :
    SatisfiesM (fun res : (Value × Option ConfigError) × List Deferred => res.1.2 = none →
      NonInterfering res.1.1 res.2 → ∀ noted, noted.Perm res.2 →
        res.1.1.fillDeferred noted = res.1.1.fillWith (fun _ ref => res.1.1.lookup ref.source) res.2)
      ((Value.walk (r.visitLeaf : KeyPath → String → StateT (List Deferred) m _) tree).run []) :=
  (firstPass_spec r tree ht).imp fun h hf hni noted hperm => by
    obtain ⟨o, hrw, hw, hs⟩ := h hf
    have hold := targetsHold_of_firstPass ht hrw
    rw [← hw, ← hs] at hold
    exact hold.fillDeferred_perm hni hperm

/-- Two references to one plain key. -/
theorem fillDeferred_eq_simultaneous_shared :
    (Value.obj [("x", .str "CONFIG:z"), ("y", .str "CONFIG:z"), ("z", .str "v")]).NodupKeys ∧
    SatisfiesM (fun res : (Value × Option ConfigError) × List Deferred => res.1.2 = none →
      NonInterfering res.1.1 res.2 → ∀ noted, noted.Perm res.2 →
        res.1.1.fillDeferred noted = res.1.1.fillWith (fun _ ref => res.1.1.lookup ref.source) res.2)
      ((Value.walk ((⟨.bootstrapping, defaultMaxDepth⟩ : Resolver).visitLeaf :
        KeyPath → String → StateT (List Deferred) (StateM Machine) _)
        (.obj [("x", .str "CONFIG:z"), ("y", .str "CONFIG:z"), ("z", .str "v")])).run []) :=
  have ht : (Value.obj [("x", .str "CONFIG:z"), ("y", .str "CONFIG:z"), ("z", .str "v")]).NodupKeys := by
    simp
  ⟨ht, fillDeferred_eq_simultaneous _ _ ht⟩

end Resolver

end LayeredConfig
