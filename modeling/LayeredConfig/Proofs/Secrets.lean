import LayeredConfig.Proofs.ResolvedValues
import LayeredConfig.Proofs.WalkOrder

/-! Resolving a tree on a machine whose files are kept in memory. Every directive
only reads the machine, except a secret-file read, which is one `SecretStep`;
so the first pass, a walk whose visits take the machine along such steps, only
adds secret files, and the second pass does not touch the machine.

Which leaf wrote a file is told by following the first pass leaf by leaf:
`reached` lists the leaves it visits, each with the machine it is visited on,
up to the first visit that fails. Resolving a text reads at most one secret
file, the one its directive comes to through variables, files and coerced
payloads (`ReadsSecret`); so each file the run adds was written by the secret of
a reached leaf, at a path that had no file on that leaf's machine. A secret-file
leaf that resolves holds its text from its visit on, since later steps keep
every file, whether or not a later leaf fails. -/

namespace LayeredConfig

namespace Resolver

open Machine

/-- How resolving a text on a machine comes to a secret-file directive within
the depth limit: directly, or through a variable, a file or a coerced payload
whose text comes to one, one level deeper. -/
inductive ReadsSecret (r : Resolver) (w : Machine) : String → Nat → Nat → String → Prop
  | here {text path : String} {depth n : Nat} : Directive.parse text = some ⟨.secretFile n, path⟩ →
      depth ≤ r.maxDepth → ReadsSecret r w text depth n path
  | env {text p path : String} {depth n : Nat} : Directive.parse text = some ⟨.env, p⟩ →
      depth ≤ r.maxDepth → ReadsSecret r w ((lookupEnv p : StateM Machine String).run w).1 (depth + 1) n path →
      ReadsSecret r w text depth n path
  | file {text p contents path : String} {depth n : Nat} : Directive.parse text = some ⟨.file, p⟩ →
      depth ≤ r.maxDepth → w.store.readText p = .ok contents → ReadsSecret r w contents (depth + 1) n path →
      ReadsSecret r w text depth n path
  | coerced {text p path : String} {op : Operator} {depth n : Nat} : Directive.parse text = some ⟨op, p⟩ →
      op.coerces → depth ≤ r.maxDepth → ReadsSecret r w p (depth + 1) n path → ReadsSecret r w text depth n path

theorem ReadsSecret.eq_of_parse {r : Resolver} {w : Machine} {text path p : String} {depth n k : Nat}
    (hparse : Directive.parse text = some ⟨.secretFile n, path⟩) (h : ReadsSecret r w text depth k p) :
    k = n ∧ p = path := by
  cases h with
  | here h => simp_all
  | env h => simp_all
  | file h => simp_all
  | coerced h hco =>
    rw [hparse, Option.some.injEq, Directive.mk.injEq] at h
    obtain ⟨rfl, -⟩ := h
    simp [Operator.coerces] at hco

/-- What resolving a text may do to a machine `w`, ending at `w'`: nothing, or
one read of a secret file of at most `maxSecretBytes` that the text comes to. -/
def ReadsAtMost (r : Resolver) (w : Machine) (text : String) (depth : Nat) (w' : Machine) : Prop :=
  w' = w ∨ ∃ n p, ReadsSecret r w text depth n p ∧ n ≤ maxSecretBytes ∧
    w' = ((secretFile p n : StateM Machine _).run w).2

theorem ReadsAtMost.lift {r : Resolver} {w w' : Machine} {text t : String} {depth : Nat}
    (hlift : ∀ n p, ReadsSecret r w t (depth + 1) n p → ReadsSecret r w text depth n p)
    (h : ReadsAtMost r w t (depth + 1) w') : ReadsAtMost r w text depth w' := by
  rcases h with h | ⟨n, p, hr, hn, h⟩
  · exact .inl h
  · exact .inr ⟨n, p, hlift n p hr, hn, h⟩

/-- A secret-file read adds at most one file to a store kept in memory: at its
path, which had none, the hex of the bytes drawn then. -/
theorem secretFile_added (w : Machine) (path : String) (n : Nat) (hw : w.store.InMemory) :
    ∃ added : List (String × String), ((secretFile path n : StateM Machine _).run w).2.store = w.store.append added ∧
      ∀ f ∈ added, f.1 = path ∧ (∀ t, w.store.readText path ≠ .ok t) ∧ f.2 = Hex.encode (w.random.fill n).1 := by
  rw [secretFile_run]
  split
  · exact ⟨[], by simp, by simp⟩
  · split
    · rename_i store hcreate
      obtain ⟨rfl, habsent, -⟩ := Store.createNew_ok hw hcreate
      exact ⟨_, rfl, fun f hf => by rw [List.mem_singleton.1 hf]; exact ⟨rfl, habsent, rfl⟩⟩
    · split <;> exact ⟨[], by simp, by simp⟩

theorem ReadsAtMost.added {r : Resolver} {w w' : Machine} {text : String} {depth : Nat}
    (h : ReadsAtMost r w text depth w') (hw : w.store.InMemory) :
    Steps w w' ∧ ∃ added : List (String × String), w'.store = w.store.append added ∧
      ∀ f ∈ added, ∃ n, ReadsSecret r w text depth n f.1 ∧ n ≤ maxSecretBytes ∧
        (∀ t, w.store.readText f.1 ≠ .ok t) ∧ f.2 = Hex.encode (w.random.fill n).1 := by
  rcases h with rfl | ⟨n, p, hr, hn, rfl⟩
  · exact ⟨Steps.refl _, [], by simp, by simp⟩
  · obtain ⟨added, hstore, hadded⟩ := secretFile_added w p n hw
    refine ⟨secretFile_steps w p hn, added, hstore, fun f hf => ?_⟩
    obtain ⟨hpath, habsent, htext⟩ := hadded f hf
    rw [hpath]
    exact ⟨n, hr, hn, habsent, htext⟩

section Reads

variable {r : Resolver} {path : KeyPath} {w : Machine}

/-- Within the limits, a secret-file directive resolves to what its read gives,
on the machine its read leaves. -/
theorem resolveText_secretFile_run {text p : String} {n depth : Nat}
    (hparse : Directive.parse text = some ⟨.secretFile n, p⟩) (hdepth : depth ≤ r.maxDepth)
    (hn : ¬ maxSecretBytes < n) :
    (r.resolveText (m := StateM Machine) path text depth).run w =
      (((secretFile p n : StateM Machine _).run w).1.map fun s => some (.str s),
        ((secretFile p n : StateM Machine _).run w).2) := by
  rw [resolveText_eq_apply r path hparse, apply_secretFile r hdepth, if_neg hn, run_bind_pure]

theorem resolveText_secretFile_beyond {text p : String} {n depth : Nat}
    (hparse : Directive.parse text = some ⟨.secretFile n, p⟩) (hdepth : depth ≤ r.maxDepth)
    (hn : maxSecretBytes < n) :
    (r.resolveText (m := StateM Machine) path text depth).run w =
      (.error (.secretTooLarge path n maxSecretBytes), w) := by
  rw [resolveText_eq_apply r path hparse, apply_secretFile r hdepth, if_pos hn]
  rfl

/-- Resolving a text reads at most one secret file, the one it comes to. -/
theorem resolveText_readsAtMost {k : Nat} {text : String} {depth : Nat} (hk : r.maxDepth < depth + k) :
    ReadsAtMost r w text depth ((r.resolveText (m := StateM Machine) path text depth).run w).2 := by
  -- induction on the levels left before the limit
  induction k generalizing text depth with
  | zero =>
    cases hparse : Directive.parse text with
    | none => rw [resolveText, hparse]; exact .inl rfl
    | some d => rw [resolveText_beyond_limit r path hparse (by omega)]; exact .inl rfl
  | succ k ih =>
    cases hparse : Directive.parse text with
    | none => rw [resolveText, hparse]; exact .inl rfl
    | some d =>
      by_cases hdepth : r.maxDepth < depth
      · rw [resolveText_beyond_limit r path hparse hdepth]; exact .inl rfl
      have hle : depth ≤ r.maxDepth := by omega
      obtain ⟨op, p⟩ := d
      cases op with
      | env =>
        rw [resolveText_env r path hparse hle, run_bind_of_snd _ _ _ (lookupEnv_run_snd p w)]
        exact (ih (by omega)).lift fun n q h => .env hparse hle h
      | file =>
        rw [resolveText_file r path hparse hle, run_bind_of_snd _ _ _ (by rw [readFile_run]), readFile_run]
        cases hread : w.store.readText p with
        | error e => exact .inl rfl
        | ok contents => exact (ih (by omega)).lift fun n q h => .file hparse hle hread h
      | bool =>
        rw [resolveText_bool r path hparse hle, map_eq_pure_bind, run_bind_pure]
        exact (ih (by omega)).lift fun n q h => .coerced hparse rfl hle h
      | int radix =>
        rw [resolveText_int r path hparse hle, map_eq_pure_bind, run_bind_pure]
        exact (ih (by omega)).lift fun n q h => .coerced hparse rfl hle h
      | secretFile n =>
        by_cases hbig : maxSecretBytes < n
        · rw [resolveText_secretFile_beyond hparse hle hbig]; exact .inl rfl
        · rw [resolveText_secretFile_run hparse hle hbig]
          exact .inr ⟨n, p, .here hparse hle, Nat.le_of_not_lt hbig, rfl⟩
      | raw | hexText | base64Text | config | obfuscated =>
        rw [resolveText_within_limit r path hparse hle]; exact .inl rfl

theorem visitLeaf_readsAtMost (q : KeyPath) (l : String) (s : List Deferred) (w : Machine) :
    ReadsAtMost r w l 0 (Value.runAt (r.visitLeaf q l : StateT (List Deferred) (StateM Machine) _) s w).2 := by
  cases hparse : Directive.parse l with
  | none => rw [visitLeaf_runAt_none r q hparse]; exact .inl rfl
  | some d =>
    by_cases hc : d.operator = .config
    · rw [visitLeaf_runAt_config r q hparse hc]; exact .inl rfl
    · rw [visitLeaf_runAt_apply r q hparse hc, ← resolveText_eq_apply r q hparse]
      exact resolveText_readsAtMost (k := r.maxDepth + 1) (by omega)

/-- A secret-file leaf that resolves on a machine holds its text once visited there. -/
theorem visitLeaf_secret_holds (q : KeyPath) {l p t : String} {n : Nat} (s : List Deferred) (w : Machine)
    (hparse : Directive.parse l = some ⟨.secretFile n, p⟩)
    (h : ((r.resolveText (m := StateM Machine) q l 0).run w).1 = .ok (some (.str t))) :
    (Value.runAt (r.visitLeaf q l : StateT (List Deferred) (StateM Machine) _) s w).2.store.readText p = .ok t := by
  rw [visitLeaf_runAt_apply r q hparse (by simp), ← resolveText_eq_apply r q hparse]
  by_cases hbig : maxSecretBytes < n
  · rw [resolveText_secretFile_beyond hparse (Nat.zero_le _) hbig] at h; cases h
  · rw [resolveText_secretFile_run hparse (Nat.zero_le _) hbig] at h ⊢
    cases hres : ((secretFile p n : StateM Machine _).run w).1 with
    | error e => simp [hres, Except.map] at h
    | ok text =>
      simp only [hres, Except.map, Except.ok.injEq, Option.some.injEq, Value.str.injEq] at h
      subst h
      exact secretFile_holds hres

end Reads

/-- The leaves the first pass reaches, from a list of leaves, the references
noted so far and a machine, each with the machine it is visited on: the pass
goes on after a visit that succeeds and stops after one that fails. -/
def reached (r : Resolver) : List (KeyPath × String) → List Deferred → Machine → List (KeyPath × String × Machine)
  | [], _, _ => []
  | (q, l) :: rest, s, w =>
    (q, l, w) :: match Value.runAt (r.visitLeaf q l : StateT (List Deferred) (StateM Machine) _) s w with
      | ((.ok _, s'), w') => reached r rest s' w'
      | ((.error _, _), _) => []

/-- The pass reaches a first part of the leaves, in their order. -/
theorem reached_initial_leaves (r : Resolver) (ls : List (KeyPath × String)) (s : List Deferred) (w : Machine) :
    ((r.reached ls s w).map fun x => (x.1, x.2.1)) <+: ls := by
  induction ls generalizing s w with
  | nil => exact List.prefix_refl []
  | cons x rest ih =>
    obtain ⟨q, l⟩ := x
    rw [reached]
    split
    · exact List.cons_prefix_cons.2 ⟨rfl, ih _ _⟩
    · exact List.cons_prefix_cons.2 ⟨rfl, List.nil_prefix⟩

/-- What the first pass did to a machine `w`, ending at `w'`, having visited
`visits`: it took the machine along secret-file steps, added files only, each
written by the secret read of a visited leaf on the machine it was visited on,
and left every secret-file leaf that resolved holding its text. -/
structure PassAdds (r : Resolver) (visits : List (KeyPath × String × Machine)) (w w' : Machine) : Prop where
  steps : Steps w w'
  added : ∃ added : List (String × String), w'.store = w.store.append added ∧
    ∀ f ∈ added, ∃ q l u n, (q, l, u) ∈ visits ∧ Steps w u ∧ ReadsSecret r u l 0 n f.1 ∧
      n ≤ maxSecretBytes ∧ (∀ t, u.store.readText f.1 ≠ .ok t) ∧ f.2 = Hex.encode (u.random.fill n).1
  held : ∀ q l u, (q, l, u) ∈ visits → ∀ n p t, Directive.parse l = some ⟨.secretFile n, p⟩ →
    ((r.resolveText (m := StateM Machine) q l 0).run u).1 = .ok (some (.str t)) → w'.store.readText p = .ok t

theorem runAt_map {α γ : Type} (f : α → γ) (x : StateT (List Deferred) (StateM Machine) α) (s : List Deferred)
    (w : Machine) : Value.runAt (f <$> x) s w =
      ((f (Value.runAt x s w).1.1, (Value.runAt x s w).1.2), (Value.runAt x s w).2) := rfl

section Pass

variable {r : Resolver} {w w' : Machine}

theorem PassAdds.nil (w : Machine) : PassAdds r [] w w :=
  ⟨Steps.refl w, ⟨[], by simp, by simp⟩, by simp⟩

theorem PassAdds.visit (q : KeyPath) (l : String) (s : List Deferred) {visits : List (KeyPath × String × Machine)}
    (hw : w.store.InMemory)
    (hrest : PassAdds r visits (Value.runAt (r.visitLeaf q l : StateT (List Deferred) (StateM Machine) _) s w).2 w') :
    PassAdds r ((q, l, w) :: visits) w w' := by
  obtain ⟨hsteps₁, added₁, hstore₁, hadded₁⟩ := (visitLeaf_readsAtMost q l s w).added hw
  obtain ⟨hsteps, ⟨added, hstore, hadded⟩, hheld⟩ := hrest
  refine ⟨hsteps₁.trans hsteps, ⟨added₁ ++ added, by rw [hstore, hstore₁, Store.append_append], ?_⟩, ?_⟩
  · intro f hf
    rcases List.mem_append.1 hf with hf | hf
    · obtain ⟨n, hr, hn, habsent, htext⟩ := hadded₁ f hf
      exact ⟨q, l, w, n, List.mem_cons_self, Steps.refl w, hr, hn, habsent, htext⟩
    · obtain ⟨q', l', u, n, hmem, hu, hrest⟩ := hadded f hf
      exact ⟨q', l', u, n, List.mem_cons_of_mem _ hmem, hsteps₁.trans hu, hrest⟩
  · intro q' l' u hmem n p t hparse hres
    rcases List.mem_cons.1 hmem with heq | hmem
    · -- the leaf visited first holds its text after its visit, and later steps keep it
      simp only [Prod.mk.injEq] at heq
      obtain ⟨rfl, rfl, rfl⟩ := heq
      exact hsteps.readText (visitLeaf_secret_holds q' s u hparse hres)
    · exact hheld q' l' u hmem n p t hparse hres

/-- The first pass over any list of leaves, on a store kept in memory, does to
the machine what `PassAdds` says, over the leaves it reaches. -/
theorem visitAll_passAdds (ls : List (KeyPath × String)) (s : List Deferred) (hw : w.store.InMemory) :
    PassAdds r (r.reached ls s w) w
      (Value.runAt (Value.visitAll (r.visitLeaf : KeyPath → String → StateT (List Deferred) (StateM Machine) _) ls)
        s w).2 := by
  induction ls generalizing s w with
  | nil => exact PassAdds.nil w
  | cons x rest ih =>
    obtain ⟨q, l⟩ := x
    have hw₁ := (visitLeaf_steps r q l s w).inMemory hw
    rcases hv : Value.runAt (r.visitLeaf q l : StateT (List Deferred) (StateM Machine) _) s w with ⟨⟨res, s₁⟩, w₁⟩
    rw [hv] at hw₁
    cases res with
    | error e =>
      have hrun : (Value.runAt (Value.visitAll (r.visitLeaf : KeyPath → String → StateT (List Deferred) (StateM Machine) _)
          ((q, l) :: rest)) s w).2 = w₁ := by
        simp [Value.visitAll, hv]
      rw [hrun, reached, hv]
      exact PassAdds.visit q l s hw (by rw [hv]; exact PassAdds.nil w₁)
    | ok a =>
      have hrun : (Value.runAt (Value.visitAll (r.visitLeaf : KeyPath → String → StateT (List Deferred) (StateM Machine) _)
          ((q, l) :: rest)) s w).2 =
          (Value.runAt (Value.visitAll (r.visitLeaf : KeyPath → String → StateT (List Deferred) (StateM Machine) _)
            rest) s₁ w₁).2 := by
        simp [Value.visitAll, hv, runAt_map]
      rw [hrun, reached, hv]
      exact PassAdds.visit q l s hw (by rw [hv]; exact ih s₁ hw₁)

end Pass

/-- What a secret-file leaf resolves to, in a machine: the text its path holds. -/
def SecretHeld (w : Machine) (leaf : String) (o : Option Value) : Prop :=
  ∀ n path, Directive.parse leaf = some ⟨.secretFile n, path⟩ →
    ∃ s, o = some (.str s) ∧ w.store.readText path = .ok s

theorem SecretHeld.steps {w w' : Machine} (h : Steps w w') {leaf : String} {o : Option Value}
    (hheld : SecretHeld w leaf o) : SecretHeld w' leaf o := by
  intro n path hparse
  obtain ⟨s, ho, hread⟩ := hheld n path hparse
  exact ⟨s, ho, h.readText hread⟩

/-- A visit of the first pass on a machine with its files in memory: it takes the
machine along secret-file steps, keeps plain text and references, notes the
references, and resolves a secret-file leaf to the text its path then holds. -/
theorem visitLeaf_secrets (r : Resolver) (path : KeyPath) (leaf : String) (s : List Deferred)
    (w : Machine) (hw : w.store.InMemory) :
    (Value.runAt (r.visitLeaf path leaf : StateT (List Deferred) (StateM Machine) _) s w).2.store.InMemory ∧
    Steps w (Value.runAt (r.visitLeaf path leaf : StateT (List Deferred) (StateM Machine) _) s w).2 ∧
    ∀ a, (Value.runAt (r.visitLeaf path leaf : StateT (List Deferred) (StateM Machine) _) s w).1.1 = .ok a →
      (KeepsLeaf leaf (a.outcome (.str leaf)) ∧
        SecretHeld (Value.runAt (r.visitLeaf path leaf : StateT (List Deferred) (StateM Machine) _) s w).2
          leaf (a.outcome (.str leaf))) ∧
      (Value.runAt (r.visitLeaf path leaf : StateT (List Deferred) (StateM Machine) _) s w).1.2 =
        s ++ noteOf path leaf := by
  have hsteps := visitLeaf_steps r path leaf s w
  refine ⟨hsteps.inMemory hw, hsteps, fun a ha => ⟨?_, visitLeaf_notes r path leaf s w⟩⟩
  cases hparse : Directive.parse leaf with
  | none =>
    rw [visitLeaf_runAt_none r path hparse] at ha ⊢
    cases ha
    exact ⟨fun _ => rfl, fun n p h => by simp [hparse] at h⟩
  | some d =>
    by_cases hc : d.operator = .config
    · rw [visitLeaf_runAt_config r path hparse hc] at ha ⊢
      cases ha
      refine ⟨fun _ => rfl, fun n p h => ?_⟩
      rw [hparse, Option.some.injEq] at h
      simp [h] at hc
    · rw [visitLeaf_runAt_apply r path hparse hc] at ha ⊢
      refine ⟨?_, ?_⟩
      · intro hkeep
        exact absurd (hkeep d (by simp [hparse])) hc
      · intro n p hsecret
        rw [hparse, Option.some.injEq] at hsecret
        subst hsecret
        rw [← resolveText_eq_apply r path hparse] at ha ⊢
        by_cases hbig : maxSecretBytes < n
        · rw [resolveText_secretFile_beyond hparse (Nat.zero_le _) hbig] at ha; cases ha
        · rw [resolveText_secretFile_run hparse (Nat.zero_le _) hbig] at ha ⊢
          cases hres : ((secretFile p n : StateM Machine _).run w).1 with
          | error e => simp [hres, Except.map] at ha
          | ok text =>
            simp only [hres, Except.map, Except.ok.injEq] at ha
            subst ha
            exact ⟨text, rfl, secretFile_holds hres⟩

/-- The first pass on a machine with its files in memory: it takes the machine
along secret-file steps, and when it succeeds it keeps plain text and
references and resolves every secret-file leaf to the text its path holds at
the end of the pass. -/
theorem walk_secrets (r : Resolver) (tree : Value) (ht : tree.NodupKeys) {w w' : Machine}
    (hw : w.store.InMemory) {walked : Value} {failure : Option ConfigError} {noted : List Deferred}
    (hrun : Value.runAt (Value.walk (r.visitLeaf : KeyPath → String → StateT (List Deferred) (StateM Machine) _)
      tree) [] w = (((walked, failure), noted), w')) :
    w'.store.InMemory ∧ Steps w w' ∧ (failure = none → ∃ o,
      Value.Rewrites (fun _ l o => KeepsLeaf l o ∧ SecretHeld w' l o) [] tree o ∧ walked = o.getD .null ∧
        noted = Value.notesOf noteOf (Value.leaves [] tree)) := by
  have hmono : ∀ {w w' : Machine}, Steps w w' → ∀ (_ : KeyPath) (l : String) (o : Option Value),
      KeepsLeaf l o ∧ SecretHeld w l o → KeepsLeaf l o ∧ SecretHeld w' l o :=
    fun hR _ _ _ hok => ⟨hok.1, hok.2.steps hR⟩
  obtain ⟨hinv, hsteps, h⟩ := Value.walk_along Steps.refl Steps.trans hmono
    (visitLeaf_secrets r) tree ht hw hrun
  exact ⟨hinv, hsteps, fun hf => by simpa using h hf⟩

/-- The first pass ends on the machine its visits of the tree's leaves end on. -/
theorem walk_machine (r : Resolver) {tree : Value} (ht : tree.NodupKeys) {w w' : Machine} {walked : Value}
    {failure : Option ConfigError} {noted : List Deferred}
    (hrun : Value.runAt (Value.walk (r.visitLeaf : KeyPath → String → StateT (List Deferred) (StateM Machine) _)
      tree) [] w = (((walked, failure), noted), w')) :
    w' = (Value.runAt (Value.visitAll (r.visitLeaf : KeyPath → String → StateT (List Deferred) (StateM Machine) _)
      (Value.leaves [] tree)) [] w).2 := by
  rw [Value.walk_eq_visitAll _ tree ht, runAt_map] at hrun
  exact (congrArg Prod.snd hrun).symm

/-- Resolving a tree on a machine whose files are kept in memory only adds
files, whether it succeeds or fails: the environment stays, every file keeps its
text, and each new file was written by the secret-file directive that a leaf the
run reached (a first part of the leaves, in pre-order) comes to, on the machine that leaf was visited on, at a path that had
no file then, as the `2n` lowercase hex digits of `n ≤ maxSecretBytes` bytes
drawn from the random source (from a pattern, its bytes in a cycle). A secret
larger than the limit fails before any host operation. Every secret-file leaf
the run reached that resolved holds its text at the end, also when a later leaf
fails; when the run succeeds, the tree it gives has that text at the leaf. -/
theorem resolveTree_adds_only_secrets (r : Resolver) (tree : Value) (ht : tree.NodupKeys) (w : Machine)
    (hw : w.store.InMemory) :
    let run := (r.resolveTree tree : StateM Machine _).run w
    let visits := r.reached (Value.leaves [] tree) [] w
    (visits.map fun x => (x.1, x.2.1)) <+: Value.leaves [] tree ∧
    (∃ added : List (String × String), run.2.store = w.store.append added ∧ run.2.env = w.env ∧
      (∀ path text, w.store.readText path = .ok text → run.2.store.readText path = .ok text) ∧
      ∀ f ∈ added, ∃ q leaf u n, (q, leaf, u) ∈ visits ∧ ReadsSecret r u leaf 0 n f.1 ∧ Steps w u ∧
        n ≤ maxSecretBytes ∧ (∀ t, u.store.readText f.1 ≠ .ok t) ∧
        f.2 = Hex.encode (u.random.fill n).1 ∧ f.2.length = 2 * n ∧ (∀ c ∈ f.2.toList, c ∈ Hex.lowerDigits) ∧
        ∀ bs, w.random = .pattern bs → (u.random.fill n).1 = (List.range n).map fun i => bs.getD (i % bs.length) 0) ∧
    (∀ (m : Type → Type) [Monad m] [Host m] fuel path n payload depth, depth ≤ r.maxDepth → maxSecretBytes < n →
      (r.apply (fuel + 1) path ⟨.secretFile n, payload⟩ depth : m _) =
        pure (.error (.secretTooLarge path n maxSecretBytes))) ∧
    (∀ q leaf u n path s, (q, leaf, u) ∈ visits → Directive.parse leaf = some ⟨.secretFile n, path⟩ →
      ((r.resolveText (m := StateM Machine) q leaf 0).run u).1 = .ok (some (.str s)) →
      run.2.store.readText path = .ok s) ∧
    (run.1.2 = none → ∀ q leaf n path, tree.get? q = some (.str leaf) →
      Directive.parse leaf = some ⟨.secretFile n, path⟩ →
      ∃ s, run.1.1.get? q = some (.str s) ∧ run.2.store.readText path = .ok s) := by
  intro run visits
  rcases hx : Value.runAt (Value.walk (r.visitLeaf : KeyPath → String → StateT (List Deferred) (StateM Machine) _)
    tree) [] w with ⟨⟨⟨walked, failure⟩, noted⟩, w'⟩
  obtain ⟨-, -, hwalk⟩ := walk_secrets r tree ht hw hx
  have hpass : PassAdds r visits w w' := walk_machine r ht hx ▸ visitAll_passAdds _ [] hw
  have hrun : run = _ := resolveTree_run r hx
  rw [hrun]
  refine ⟨reached_initial_leaves r _ [] w, ?added, ?tooLarge, fun q leaf u n path s hmem => hpass.held q leaf u hmem n path s,
    ?held⟩
  case added =>
    obtain ⟨added, hstore, hadded⟩ := hpass.added
    refine ⟨added, hstore, hpass.steps.env, fun _ _ h => hpass.steps.readText h, fun f hf => ?_⟩
    obtain ⟨q, leaf, u, n, hmem, hu, hreads, hn, habsent, htext⟩ := hadded f hf
    refine ⟨q, leaf, u, n, hmem, hreads, hu, hn, habsent, htext, ?_, ?_, fun bs hbs => ?_⟩
    · rw [htext, Hex.length_encode, RandomSource.length_fill]
    · rw [htext]
      exact fun c hc => Hex.mem_encode hc
    · rw [hu.random_pattern hbs, RandomSource.fill_pattern]
  case tooLarge =>
    intro m _ _ fuel path n payload depth hdepth hbig
    rw [apply_secretFile r hdepth, if_pos hbig]
  case held =>
    intro hsucc q leaf n path hq hparse
    cases failure with
    | some e => cases hsucc
    | none =>
      obtain ⟨o, hrw, rfl, rfl⟩ := hwalk rfl
      have hkeeps := Value.Rewrites.mono (fun _ _ _ h => h.1) [] tree hrw
      -- the second pass assigns at references, where no secret is read
      have hleaf : ∀ d ∈ Value.notesOf noteOf (Value.leaves [] tree), ∃ l, tree.get? d.target = some (.str l) ∧
          (o.getD .null).get? d.target = some (.str l) ∧ ∀ x, SecretHeld w' l x := by
        intro d hd
        obtain ⟨l, hconfig, hq', hget⟩ := get?_target_of_firstPass ht hkeeps hd
        exact ⟨l, hq', hget, fun x n path h => by simp [hconfig] at h⟩
      obtain ⟨o', hrw', hfill⟩ := (Value.Rewrites.mono (fun _ _ _ h => h.2) [] tree hrw).fillWith ht _
        (targetsHold_of_firstPass ht hkeeps).apart hleaf
      obtain ⟨v, hv, s, rfl, hs⟩ := hrw'.get?_of_leaf ht hq
        (P := fun v => ∃ s, v = .str s ∧ w'.store.readText path = .ok s) fun o'' ho'' => by
          obtain ⟨s, rfl, hs⟩ := ho'' n path (by simpa using hparse)
          exact ⟨_, rfl, s, rfl, hs⟩
      refine ⟨s, ?_, hs⟩
      rw [Value.fillDeferred_eq_fillWith, hfill]
      cases o' with
      | none => cases hv
      | some x => exact hv

/-- A secret file created from a pattern of two bytes, at the path its leaf names. -/
theorem resolveTree_adds_only_secrets_pattern :
    (Value.obj [("token", .str "SFILE2:/run/token")]).NodupKeys ∧ (Store.exact [] none []).InMemory ∧
    ∃ added : List (String × String),
      (((⟨.bootstrapping, defaultMaxDepth⟩ : Resolver).resolveTree (.obj [("token", .str "SFILE2:/run/token")]) :
        StateM Machine _).run ⟨.fixed [], .exact [] none [], .pattern [171, 205], .pattern []⟩).2.store =
          .exact added none [] ∧
      ∀ f ∈ added, f.1 = "/run/token" ∧ ∃ n ≤ maxSecretBytes,
        f.2 = Hex.encode ((List.range n).map fun i => [171, 205].getD (i % 2) 0) := by
  have ht : (Value.obj [("token", .str "SFILE2:/run/token")]).NodupKeys := by simp
  obtain ⟨-, ⟨added, hstore, -, -, hadded⟩, -⟩ :=
    resolveTree_adds_only_secrets ⟨.bootstrapping, defaultMaxDepth⟩ _ ht
      ⟨.fixed [], .exact [] none [], .pattern [171, 205], .pattern []⟩ trivial
  refine ⟨ht, trivial, added, by simpa [Store.append] using hstore, fun f hf => ?_⟩
  obtain ⟨q, leaf, u, n, hmem, hreads, -, hn, -, htext, -, -, hpattern⟩ := hadded f hf
  have hleaf : leaf = "SFILE2:/run/token" := by
    simp [reached, Value.leaves, Value.fieldLeaves] at hmem
    rcases hmem with ⟨-, rfl, -⟩ | hmem
    · rfl
    · split at hmem <;> simp at hmem
  subst hleaf
  have hparse : Directive.parse "SFILE2:/run/token" = some ⟨.secretFile 2, "/run/token"⟩ := by decide +kernel
  refine ⟨(ReadsSecret.eq_of_parse hparse hreads).2, n, hn, ?_⟩
  rw [htext, hpattern [171, 205] rfl]
  rfl

end Resolver
end LayeredConfig
