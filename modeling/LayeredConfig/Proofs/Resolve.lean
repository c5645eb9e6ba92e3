import LayeredConfig.Proofs.Walk
import LayeredConfig.Directive.Resolve
import LayeredConfig.Host.Machine

/-! The two passes of resolving a tree. The first is a walk whose visitor keeps
plain text and `CONFIG:` references and notes each reference with its leaf's
path; so when it succeeds the walked tree still holds every noted reference at
its target, and the targets, being paths of distinct leaves, are pairwise
apart. The second pass assigns at those targets one after another; since an
assignment at one path leaves every apart path as it was, each assignment finds
its target whatever was assigned before it, and each one writes only a leaf
position, so the resolved tree differs from the input at string leaves only. -/

namespace LayeredConfig

open scoped List

namespace Directive

theorem eq_of_parse_config {leaf payload : String} (h : parse leaf = some ⟨.config, payload⟩) :
    leaf = "CONFIG:" ++ payload := by
  unfold parse at h
  simp only at h
  split at h
  · rename_i d hplain
    cases h
    obtain ⟨tag, htag, hf⟩ := List.exists_of_findSome?_eq_some hplain
    simp only [Operator.plainTags, List.mem_cons, List.not_mem_nil, or_false] at htag
    rcases htag with rfl | rfl | rfl | rfl | rfl | rfl | rfl | rfl | rfl | rfl | rfl <;>
      simp [Operator.ofTag?] at hf
    obtain ⟨htake, rfl⟩ := hf
    rw [← String.toList_inj, String.toList_append, String.toList_ofList,
      ← List.take_append_drop 7 leaf.toList, htake]
    simp
  · split at h
    · split at h
      · obtain ⟨n, -, hn⟩ := Option.bind_eq_some_iff.1 h
        obtain ⟨op, hop, heq⟩ := Option.map_eq_some_iff.1 hn
        cases heq
        simp only [Operator.ofTag?] at hop
        split at hop <;> cases hop
      · cases h
    · cases h

end Directive

namespace Value

open Resolver (Deferred)

/-- The second pass with any values: at each noted target in turn, assign what
`val` gives for the tree as it stands. -/
def fillWith (val : Value → Deferred → Option Value) (tree : Value) (noted : List Deferred) :
    Value :=
  noted.foldl (fun t ref => (t.assign ref.target (val t ref)).2) tree

theorem fillDeferred_eq_fillWith (tree : Value) (noted : List Deferred) :
    tree.fillDeferred noted = tree.fillWith (fun t ref => t.lookup ref.source) noted := rfl

@[simp] theorem fillWith_nil (val : Value → Deferred → Option Value) (tree : Value) :
    tree.fillWith val [] = tree := rfl

@[simp] theorem fillWith_cons (val : Value → Deferred → Option Value) (tree : Value) (d : Deferred)
    (rest : List Deferred) :
    tree.fillWith val (d :: rest) = (tree.assign d.target (val tree d)).2.fillWith val rest := rfl

theorem assign_fst (v : Value) (p : KeyPath) (o : Option Value) :
    (v.assign p o).1 = (v.assign? p o).isSome := by
  unfold assign
  cases v.assign? p o <;> rfl

theorem assign_snd_of_assign? {v w : Value} {p : KeyPath} {o : Option Value}
    (h : v.assign? p o = some w) : (v.assign p o).2 = w := by
  simp [assign, h]

theorem get?_assign_of_apart (v : Value) {p q : KeyPath} (hpq : KeyPath.Apart p q) (o : Option Value) :
    (v.assign p o).2.get? q = v.get? q := by
  unfold assign
  cases h : v.assign? p o with
  | none => rfl
  | some w => exact get?_assign?_of_apart h hpq

theorem get?_fillWith_of_apart (val : Value → Deferred → Option Value) {q : KeyPath}
    {noted : List Deferred} (h : ∀ d ∈ noted, KeyPath.Apart d.target q) (tree : Value) :
    (tree.fillWith val noted).get? q = tree.get? q := by
  induction noted generalizing tree with
  | nil => rfl
  | cons d rest ih =>
    rw [fillWith_cons, ih (fun e he => h e (List.mem_cons_of_mem d he)),
      get?_assign_of_apart _ (h d List.mem_cons_self)]

theorem bind_get?_of_getD {o : Option Value} {q : KeyPath} {l : String}
    (h : (o.getD .null).get? q = some (.str l)) : o.bind (·.get? q) = some (.str l) := by
  cases o with
  | some w => exact h
  | none =>
    cases q with
    | nil => simp at h
    | cons s q => cases s <;> simp [get?_cons, Value.child?] at h

/-- Assigning, one after another, at apart leaves still present, where any
outcome is allowed, keeps the tree a rewrite of the original. -/
theorem Rewrites.fillWith {ok : KeyPath → String → Option Value → Prop} {v : Value}
    (hv : v.NodupKeys) (val : Value → Deferred → Option Value) {noted : List Deferred}
    (hapart : (noted.map Deferred.target).Pairwise KeyPath.Apart) {o : Option Value}
    (h : Rewrites ok [] v o)
    (hleaf : ∀ d ∈ noted, ∃ l, v.get? d.target = some (.str l) ∧
      (o.getD .null).get? d.target = some (.str l) ∧ ∀ x, ok d.target l x) :
    ∃ o', Rewrites ok [] v o' ∧ (o.getD .null).fillWith val noted = o'.getD .null := by
  induction noted generalizing o with
  | nil => exact ⟨o, h, rfl⟩
  | cons d rest ih =>
    rw [List.map_cons, List.pairwise_cons] at hapart
    obtain ⟨l, hq, hpresent, hany⟩ := hleaf d List.mem_cons_self
    obtain ⟨o', hassign, hrw⟩ := h.assign?_of_leaf hv hq (bind_get?_of_getD hpresent)
      (by simpa using hany) (val (o.getD .null) d)
    rw [fillWith_cons, assign_snd_of_assign? hassign]
    refine ih hapart.2 hrw fun e he => ?_
    obtain ⟨l', hq', hpresent', hany'⟩ := hleaf e (List.mem_cons_of_mem d he)
    have hde : KeyPath.Apart d.target e.target := hapart.1 e.target (List.mem_map_of_mem he)
    exact ⟨l', hq', by rw [get?_assign?_of_apart hassign hde, hpresent'], hany'⟩

end Value

namespace Resolver

open Value

/-- What the first pass notes for a leaf: its reference, if it is a `CONFIG:` one. -/
def noteOf (path : KeyPath) (leaf : String) : List Deferred :=
  match Directive.parse leaf with
  | none => []
  | some d => if d.operator = .config then [⟨path, d.payload⟩] else []

/-- The first pass keeps a leaf that is plain text or a `CONFIG:` reference. -/
def KeepsLeaf (leaf : String) (o : Option Value) : Prop :=
  (∀ d ∈ Directive.parse leaf, d.operator = .config) → o = some (.str leaf)

/-- Resolving keeps a leaf that is plain text. -/
def KeepsPlain (leaf : String) (o : Option Value) : Prop :=
  Directive.parse leaf = none → o = some (.str leaf)

theorem KeepsLeaf.keepsPlain {leaf : String} {o : Option Value} (h : KeepsLeaf leaf o) :
    KeepsPlain leaf o :=
  fun hplain => h fun d hd => by simp [hplain] at hd

theorem mem_noteOf {path : KeyPath} {leaf : String} {d : Deferred} (h : d ∈ noteOf path leaf) :
    d.target = path ∧ Directive.parse leaf = some ⟨.config, d.source⟩ := by
  unfold noteOf at h
  cases hparse : Directive.parse leaf with
  | none => simp [hparse] at h
  | some dir =>
    obtain ⟨op, payload⟩ := dir
    by_cases hc : op = .config
    · subst hc
      simp only [hparse, if_true, List.mem_singleton] at h
      subst h
      exact ⟨rfl, rfl⟩
    · simp [hparse, hc] at h

theorem map_target_noteOf_sublist (path : KeyPath) (leaf : String) :
    (noteOf path leaf).map Deferred.target <+ [path] := by
  unfold noteOf
  split
  · simp
  · split <;> simp

theorem mem_notesOf_noteOf {ls : List (KeyPath × String)} {d : Deferred}
    (h : d ∈ Value.notesOf noteOf ls) :
    ∃ leaf, (d.target, leaf) ∈ ls ∧ Directive.parse leaf = some ⟨.config, d.source⟩ := by
  obtain ⟨⟨path, leaf⟩, hmem, hd⟩ := List.mem_flatMap.1 h
  obtain ⟨rfl, hparse⟩ := mem_noteOf hd
  exact ⟨leaf, hmem, hparse⟩

/-- The targets noted for a list of leaves are some of the leaves' paths, in order. -/
theorem targets_notesOf_sublist (ls : List (KeyPath × String)) :
    (Value.notesOf noteOf ls).map Deferred.target <+ ls.map Prod.fst := by
  induction ls with
  | nil => simp
  | cons q rest ih =>
    rw [← List.singleton_append, Value.notesOf_append, Value.notesOf_singleton, List.map_append,
      List.map_append]
    exact (map_target_noteOf_sublist q.1 q.2).append ih

variable {m : Type → Type} [Monad m] [LawfulMonad m] [Host m]

/-- One visit of the first pass: it keeps what it must keep and notes the leaf's
reference. -/
theorem visitLeaf_spec (r : Resolver) (path : KeyPath) (leaf : String) (s : List Deferred) :
    SatisfiesM (fun res : Except ConfigError Visit × List Deferred => ∀ a, res.1 = .ok a →
      KeepsLeaf leaf (a.outcome (.str leaf)) ∧ res.2 = s ++ noteOf path leaf)
      ((r.visitLeaf path leaf : StateT (List Deferred) m _).run s) := by
  unfold visitLeaf noteOf KeepsLeaf
  cases hparse : Directive.parse leaf with
  | none => exact SatisfiesM.pure fun a ha => by cases ha; exact ⟨fun _ => rfl, by simp⟩
  | some d =>
    by_cases hc : d.operator = .config
    · simp only [Option.mem_def, Option.some.injEq, forall_eq', hc, forall_const, if_true,
        bind_pure_comp, StateT.run_map, StateT.run_modify, map_pure]
      exact SatisfiesM.pure fun a ha => by cases ha; exact ⟨rfl, rfl⟩
    · simp only [Option.mem_def, Option.some.injEq, forall_eq', hc, false_implies, if_false,
        List.append_nil, true_and, bind_pure_comp, StateT.run_map, StateT.run_monadLift,
        monadLift_self, Functor.map_map]
      exact SatisfiesM.map_pre (SatisfiesM.of_true fun _ _ _ => rfl)

/-- The first pass, when it succeeds, keeps plain text and references and notes
the references of the tree's leaves in pre-order. -/
theorem firstPass_spec (r : Resolver) (tree : Value) (ht : tree.NodupKeys) :
    SatisfiesM (fun res : (Value × Option ConfigError) × List Deferred => res.1.2 = none →
      ∃ o, Value.Rewrites (fun _ => KeepsLeaf) [] tree o ∧ res.1.1 = o.getD .null ∧
        res.2 = Value.notesOf noteOf (tree.leaves []))
      ((Value.walk (r.visitLeaf : KeyPath → String → StateT (List Deferred) m _) tree).run []) :=
  (Value.walk_rewrites (visitLeaf_spec r) tree ht []).imp fun h hf => by
    obtain ⟨o, hrw, hw, hs⟩ := h hf
    exact ⟨o, hrw, hw, by simpa using hs⟩

/-- What the first pass leaves for the second: each noted target holds its own
`CONFIG:` leaf, and no target lies on the path to another. -/
structure TargetsHold (walked : Value) (noted : List Deferred) : Prop where
  /-- A target holds the text of its reference. -/
  holds : ∀ d ∈ noted, walked.get? d.target = some (.str ("CONFIG:" ++ d.source))
  /-- Targets are pairwise apart. -/
  apart : (noted.map Deferred.target).Pairwise KeyPath.Apart

/-- Each assignment of a second pass finds its target, whatever values it and
the assignments before it write. -/
def AssignsSucceed (walked : Value) (noted : List Deferred) : Prop :=
  ∀ val pre d post, noted = pre ++ d :: post → ∀ x,
    ((walked.fillWith val pre).assign d.target x).1 = true

/-- Every assignment of the second pass takes place, whatever was assigned before it. -/
theorem TargetsHold.assign_fillWith {walked : Value} {noted pre post : List Deferred} {d : Deferred}
    (h : TargetsHold walked noted) (hsplit : noted = pre ++ d :: post)
    (val : Value → Deferred → Option Value) (x : Option Value) :
    ((walked.fillWith val pre).assign d.target x).1 = true := by
  subst hsplit
  have hd : walked.get? d.target = some (.str ("CONFIG:" ++ d.source)) := h.holds d (by simp)
  have hpre : ∀ e ∈ pre, KeyPath.Apart e.target d.target := by
    have happart := h.apart
    rw [List.map_append, List.map_cons, List.pairwise_append] at happart
    exact fun e he => happart.2.2 e.target (List.mem_map_of_mem he) d.target List.mem_cons_self
  rw [assign_fst]
  exact assign?_isSome (by rw [get?_fillWith_of_apart val hpre, hd]; rfl) x

/-- The noted targets of a first pass that succeeded still hold their `CONFIG:`
leaves, both in the input and in the walked tree. -/
theorem get?_target_of_firstPass {tree : Value} (ht : tree.NodupKeys) {o : Option Value}
    (hrw : Rewrites (fun _ => KeepsLeaf) [] tree o) {d : Deferred}
    (hd : d ∈ notesOf noteOf (tree.leaves [])) :
    ∃ leaf, Directive.parse leaf = some ⟨.config, d.source⟩ ∧
      tree.get? d.target = some (.str leaf) ∧ (o.getD .null).get? d.target = some (.str leaf) := by
  obtain ⟨leaf, hmem, hparse⟩ := mem_notesOf_noteOf hd
  obtain ⟨q, hq, hget⟩ := get?_of_mem_leaves [] tree ht hmem
  rw [List.nil_append] at hq
  subst hq
  have hkept : ∀ o', KeepsLeaf leaf o' → o' = some (.str leaf) := fun o' hk =>
    hk fun dir hdir => by rw [hparse, Option.mem_def, Option.some.injEq] at hdir; rw [← hdir]
  refine ⟨leaf, hparse, hget, ?_⟩
  obtain ⟨w, rfl, hw⟩ := Option.bind_eq_some_iff.1 (hrw.get?_of_kept ht hget (by simpa using hkept))
  exact hw

theorem targetsHold_of_firstPass {tree : Value} (ht : tree.NodupKeys) {o : Option Value}
    (hrw : Rewrites (fun _ => KeepsLeaf) [] tree o) :
    TargetsHold (o.getD .null) (notesOf noteOf (tree.leaves [])) where
  holds d hd := by
    obtain ⟨leaf, hparse, -, hget⟩ := get?_target_of_firstPass ht hrw hd
    rw [hget, Directive.eq_of_parse_config hparse]
  apart := (leaves_pairwise_apart [] tree ht).sublist (targets_notesOf_sublist _)

/-- After a first pass that succeeds, on any host, every noted target holds
its own `CONFIG:` leaf, the targets are pairwise apart, and each assignment of
the second pass finds its target, whatever the values assigned before it. -/
theorem firstPass_targets_hold (r : Resolver) (tree : Value) (ht : tree.NodupKeys) :
    SatisfiesM (fun res : (Value × Option ConfigError) × List Deferred => res.1.2 = none →
      TargetsHold res.1.1 res.2 ∧ AssignsSucceed res.1.1 res.2)
      ((Value.walk (r.visitLeaf : KeyPath → String → StateT (List Deferred) m _) tree).run []) :=
  (firstPass_spec r tree ht).imp fun h hf => by
    obtain ⟨o, hrw, hw, hs⟩ := h hf
    rw [hw, hs]
    have hold := targetsHold_of_firstPass ht hrw
    exact ⟨hold, fun val pre d post hsplit x => hold.assign_fillWith hsplit val x⟩

/-- A reference to a sibling key. -/
theorem firstPass_targets_hold_sibling :
    (Value.obj [("x", .str "CONFIG:y"), ("y", .str "v")]).NodupKeys ∧
    SatisfiesM (fun res : (Value × Option ConfigError) × List Deferred => res.1.2 = none →
      TargetsHold res.1.1 res.2 ∧ AssignsSucceed res.1.1 res.2)
      ((Value.walk ((⟨.bootstrapping, defaultMaxDepth⟩ : Resolver).visitLeaf :
        KeyPath → String → StateT (List Deferred) (StateM Machine) _)
        (.obj [("x", .str "CONFIG:y"), ("y", .str "v")])).run []) :=
  have ht : (Value.obj [("x", .str "CONFIG:y"), ("y", .str "v")]).NodupKeys := by simp
  ⟨ht, firstPass_targets_hold _ _ ht⟩

/-- Resolving a tree, on any host, changes it at string leaves only, when it
succeeds: every other node keeps its kind, scalars their value, arrays their
length and objects their keys in order, except keys whose leaf resolved to
nothing; an item or a root that resolved to nothing becomes `null`, and plain
text stays. -/
theorem resolveTree_changes_only_leaves (r : Resolver) (tree : Value) (ht : tree.NodupKeys) :
    SatisfiesM (fun res : Value × Option ConfigError => res.2 = none →
      ∃ o, Rewrites (fun _ => KeepsPlain) [] tree o ∧ res.1 = o.getD .null)
      (r.resolveTree tree : m _) := by
  unfold resolveTree
  refine SatisfiesM.bind (firstPass_spec r tree ht) ?_
  rintro ⟨⟨walked, failure⟩, noted⟩ h
  cases failure with
  | some e => exact SatisfiesM.pure fun h => by cases h
  | none =>
    refine SatisfiesM.pure fun _ => ?_
    obtain ⟨o, hrw, rfl, rfl⟩ := h rfl
    have hleaf : ∀ d ∈ notesOf noteOf (tree.leaves []), ∃ l, tree.get? d.target = some (.str l) ∧
        (o.getD .null).get? d.target = some (.str l) ∧ ∀ x, KeepsPlain l x := by
      intro d hd
      obtain ⟨leaf, hparse, hq, hw⟩ := get?_target_of_firstPass ht hrw hd
      exact ⟨leaf, hq, hw, fun x hplain => by simp [hparse] at hplain⟩
    exact (Rewrites.mono (fun _ _ _ hk => KeepsLeaf.keepsPlain hk) [] tree hrw).fillWith ht _
      (targetsHold_of_firstPass ht hrw).apart hleaf

/-- A tree with a number, a payload and a reference, resolved on a model machine. -/
theorem resolveTree_changes_only_leaves_mixed :
    (Value.obj [("n", .num (.int 1)), ("xs", .arr [.str "RAW:a", .str "CONFIG:n"])]).NodupKeys ∧
    SatisfiesM (fun res : Value × Option ConfigError => res.2 = none →
      ∃ o, Rewrites (fun _ => KeepsPlain) []
        (.obj [("n", .num (.int 1)), ("xs", .arr [.str "RAW:a", .str "CONFIG:n"])]) o ∧
        res.1 = o.getD .null)
      ((⟨.bootstrapping, defaultMaxDepth⟩ : Resolver).resolveTree
        (.obj [("n", .num (.int 1)), ("xs", .arr [.str "RAW:a", .str "CONFIG:n"])]) :
        StateM Machine _) :=
  have ht : (Value.obj [("n", .num (.int 1)), ("xs", .arr [.str "RAW:a", .str "CONFIG:n"])]).NodupKeys := by
    simp
  ⟨ht, resolveTree_changes_only_leaves _ _ ht⟩

end Resolver

end LayeredConfig
