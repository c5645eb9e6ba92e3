import LayeredConfig.Proofs.MachineRun
import LayeredConfig.Proofs.WalkReplay

/-! Applying a directive again, on a machine that holds what an earlier
application left. A machine *covers* another when it has the same environment
and every file of the other with its text, in the same layout. Applying a
directive that succeeded, on a machine that covers where it ended, gives the
same value and leaves the machine's files and environment as they are, also
under a resolver that allows deeper nesting and decodes more: a secret file is
then read back, or found already there, and never written again. Applying a
directive that failed, on a machine with the files and environment it ended
with, fails the same way, whatever random bytes the machine now draws. -/

namespace LayeredConfig

namespace Machine

/-- `w'` has the environment of `w` and every file of `w` with its text, in the
same layout. -/
structure Covers (w w' : Machine) : Prop where
  env : w'.env = w.env
  store : w.store.Covers w'.store

theorem Covers.refl (w : Machine) : w.Covers w := ⟨rfl, Store.Covers.refl _⟩

theorem Covers.trans {a b c : Machine} (h₁ : a.Covers b) (h₂ : b.Covers c) : a.Covers c :=
  ⟨h₂.env.trans h₁.env, h₁.store.trans h₂.store⟩

theorem Steps.machineCovers {w w' : Machine} (h : Steps w w') : w.Covers w' := ⟨h.env, h.covers⟩

theorem Covers.of_eq {w w' : Machine} (hstore : w'.store = w.store) (henv : w'.env = w.env) : w.Covers w' :=
  ⟨henv, hstore ▸ Store.Covers.refl _⟩

end Machine

namespace Resolver

open Machine

theorem run_bind_of_snd {σ α β : Type} (x : StateM σ α) (f : α → StateM σ β) (w : σ) (h : (x.run w).2 = w) :
    (x >>= f).run w = (f (x.run w).1).run w := by
  rw [StateT.run_bind]
  rcases hx : x.run w with ⟨a, w₁⟩
  rw [hx] at h
  subst h
  rfl

theorem run_bind_pure {σ α β : Type} (x : StateM σ α) (g : α → β) (w : σ) :
    (x >>= fun a => pure (g a)).run w = (g (x.run w).1, (x.run w).2) := rfl

theorem lookupEnv_run_congr (payload : String) {w w' : Machine} (h : w'.env = w.env) :
    ((lookupEnv payload : StateM Machine String).run w').1 = ((lookupEnv payload : StateM Machine String).run w).1 := by
  simp only [lookupEnv, Host.envVar]
  simp [h]
  split <;> rfl

theorem secretFile_covers (w : Machine) (path : String) (n : Nat) :
    w.Covers ((secretFile path n : StateM Machine _).run w).2 := by
  rw [secretFile_run]
  split
  · exact Covers.refl w
  · split
    · rename_i store hcreate
      exact ⟨rfl, Store.covers_createNew hcreate⟩
    · split <;> exact Covers.of_eq rfl rfl

/-- A secret-file read that succeeded did not fail at creating the file. -/
theorem secretFile_created {w : Machine} {path : String} {n : Nat} {s : String}
    (h : ((secretFile path n : StateM Machine _).run w).1 = .ok s) :
    w.store.pathExists path = false → ∀ e,
      w.store.createNew path (Utf8.encode (Hex.encode (w.random.fill n).1)) = .error e →
        e.kind = .alreadyExists := by
  intro hexists e hcreate
  rw [secretFile_run] at h
  simp only [hexists, Bool.false_eq_true, if_false, hcreate] at h
  by_contra hkind
  simp [hkind] at h

/-- A secret file read again, on a machine that covers where the first read
ended, gives the same text, and leaves the files and environment as they are. -/
theorem secretFile_replay {w w' : Machine} {path : String} {n : Nat} {s : String}
    (h : ((secretFile path n : StateM Machine _).run w).1 = .ok s)
    (hcov : ((secretFile path n : StateM Machine _).run w).2.Covers w') :
    ((secretFile path n : StateM Machine _).run w').1 = .ok s ∧
    ((secretFile path n : StateM Machine _).run w').2.store = w'.store ∧
    ((secretFile path n : StateM Machine _).run w').2.env = w'.env := by
  have hread : w'.store.readText path = .ok s := hcov.store.readText _ _ (secretFile_holds h)
  have hlayout := (secretFile_covers w path n).store.layout.trans hcov.store.layout
  rw [secretFile_run]
  by_cases hexists : w'.store.pathExists path = true
  · simp [hexists, hread, Except.mapError]
  · obtain ⟨e, hcreate, hkind⟩ := (Store.exists_or_alreadyExists hlayout hread (secretFile_created h)
      (Hex.encode (w'.random.fill n).1)).resolve_left hexists
    simp [hexists, hcreate, hkind, hread, Except.mapError]

/-- A secret-file read that failed leaves the files as they were. -/
theorem secretFile_store_of_error {w : Machine} {path : String} {n : Nat} {e : ConfigError}
    (h : ((secretFile path n : StateM Machine _).run w).1 = .error e) :
    ((secretFile path n : StateM Machine _).run w).2.store = w.store ∧
    ((secretFile path n : StateM Machine _).run w).2.env = w.env := by
  rw [secretFile_run] at h ⊢
  split
  · exact ⟨rfl, rfl⟩
  · rename_i hexists
    split
    · rename_i store hcreate
      simp [hexists, hcreate] at h
    · split <;> exact ⟨rfl, rfl⟩

/-- A secret-file read that failed fails the same way on a machine with the
same files and environment, whatever random bytes it draws. -/
theorem secretFile_replay_error {w w' : Machine} {path : String} {n : Nat} {e : ConfigError}
    (h : ((secretFile path n : StateM Machine _).run w).1 = .error e) (hstore : w'.store = w.store) :
    ((secretFile path n : StateM Machine _).run w').1 = .error e := by
  rw [secretFile_run] at h ⊢
  rw [hstore]
  by_cases hexists : w.store.pathExists path = true
  · simpa [hexists] using h
  · simp only [hexists, Bool.false_eq_true, if_false] at h ⊢
    cases hcreate : w.store.createNew path (Utf8.encode (Hex.encode (w.random.fill n).1)) with
    | ok store => simp [hcreate] at h
    | error e' =>
      rw [Store.createNew_error_congr hcreate]
      simp only [hcreate] at h
      by_cases hkind : e'.kind = .alreadyExists
      · simpa [hkind] using h
      · simpa [hkind] using h

/-! ### Applying a directive again -/

/-- `r'` resolves whatever `r` resolves: it allows at least the same nesting,
and decodes every obfuscated value that `r` decodes, to the same text. -/
structure Extends (r r' : Resolver) : Prop where
  depth : r.maxDepth ≤ r'.maxDepth
  decode : ∀ payload path s, r.gate.decode payload path = .ok s → r'.gate.decode payload path = .ok s

theorem Extends.refl (r : Resolver) : r.Extends r := ⟨Nat.le_refl _, fun _ _ _ h => h⟩

/-- A resolver that refuses obfuscated values is extended by any resolver that
allows at least its nesting. -/
theorem extends_of_bootstrapping {depth : Nat} {r' : Resolver} (h : depth ≤ r'.maxDepth) :
    Extends ⟨.bootstrapping, depth⟩ r' :=
  ⟨h, fun _ _ _ hdecode => by cases hdecode⟩

/-- Whenever `x` succeeds, `y`, run on a machine that covers where `x` ended,
succeeds with the same value and leaves that machine's files and environment as
they are. -/
def OkReplays {α : Type} (x y : StateM Machine (Except ConfigError α)) : Prop :=
  ∀ w w' a, (x.run w).1 = .ok a → (x.run w).2.Covers w' →
    (y.run w').1 = .ok a ∧ (y.run w').2.store = w'.store ∧ (y.run w').2.env = w'.env

theorem OkReplays.pure {α : Type} {a b : Except ConfigError α} (h : ∀ v, a = .ok v → b = .ok v) :
    OkReplays (Pure.pure a) (Pure.pure b) :=
  fun _ _ v ha _ => ⟨h v ha, rfl, rfl⟩

theorem OkReplays.map {α β : Type} {x y : StateM Machine (Except ConfigError α)} (hxy : OkReplays x y)
    (g : Except ConfigError α → Except ConfigError β) (hg : ∀ r a, g r = .ok a → ∃ b, r = .ok b) :
    OkReplays (x >>= fun r => Pure.pure (g r)) (y >>= fun r => Pure.pure (g r)) := by
  intro w w' a h hcov
  rw [run_bind_pure] at h hcov ⊢
  obtain ⟨b, hb⟩ := hg _ _ h
  obtain ⟨hy, hstore, henv⟩ := hxy w w' b hb hcov
  exact ⟨by rw [hy, ← hb]; exact h, hstore, henv⟩

theorem OkReplays.lookupEnv {α : Type} {f g : String → StateM Machine (Except ConfigError α)}
    (payload : String) (hf : ∀ t, Keeps (f t)) (h : ∀ t, OkReplays (f t) (g t)) :
    OkReplays (Resolver.lookupEnv payload >>= f) (Resolver.lookupEnv payload >>= g) := by
  intro w w' a hrun hcov
  rw [run_bind_of_snd _ _ _ (lookupEnv_run_snd payload w)] at hrun hcov
  have henv : w'.env = w.env := hcov.env.trans (hf _ w).env
  rw [run_bind_of_snd _ _ _ (lookupEnv_run_snd payload w'), lookupEnv_run_congr payload henv]
  exact h _ w w' a hrun hcov

theorem OkReplays.readFile {α : Type} {f g : Except ConfigError String → StateM Machine (Except ConfigError α)}
    (path : String) (hf : ∀ c, Keeps (f (.ok c))) (herr : ∀ e, f (.error e) = Pure.pure (.error e))
    (h : ∀ c, OkReplays (f (.ok c)) (g (.ok c))) :
    OkReplays (Resolver.readFile path >>= f) (Resolver.readFile path >>= g) := by
  intro w w' a hrun hcov
  rw [run_bind_of_snd _ _ _ (by rw [readFile_run]), readFile_run] at hrun hcov
  rw [run_bind_of_snd _ _ _ (by rw [readFile_run]), readFile_run]
  cases hread : w.store.readText path with
  | error e =>
    simp only [hread, Except.mapError, herr] at hrun
    cases hrun
  | ok c =>
    simp only [hread, Except.mapError] at hrun hcov
    have hread' : w'.store.readText path = .ok c := hcov.store.readText _ _ ((hf c w).readText hread)
    simp only [hread', Except.mapError]
    exact h c w w' a hrun hcov

theorem OkReplays.secretFile (path : String) (n : Nat) :
    OkReplays (Resolver.secretFile path n >>= fun res => Pure.pure (res.map fun s => some (Value.str s)))
      (Resolver.secretFile path n >>= fun res => Pure.pure (res.map fun s => some (Value.str s))) :=
  OkReplays.map (fun _ _ _ h hcov => secretFile_replay h hcov) _ fun r a h => by
    cases r with
    | ok b => exact ⟨b, rfl⟩
    | error e => cases h

/-- A directive that succeeded succeeds again with the same value, with as
much fuel or more and a resolver that extends the first, on a machine that
covers where it ended. -/
theorem apply_replay {r r' : Resolver} (hr : r.Extends r') {fuel fuel' : Nat} (hfuel : fuel ≤ fuel')
    (path : KeyPath) (d : Directive) (depth : Nat) :
    OkReplays (r.apply fuel path d depth) (r'.apply fuel' path d depth) := by
  induction fuel generalizing fuel' d depth with
  | zero =>
    intro w w' a h
    rw [apply] at h
    split at h <;> simp at h
  | succ fuel ih =>
    obtain ⟨fuel', rfl⟩ : ∃ f, fuel' = f + 1 := ⟨fuel' - 1, by omega⟩
    by_cases hd : r.maxDepth < depth
    · intro w w' a h
      rw [apply] at h
      simp [hd] at h
    have hd' : ¬ r'.maxDepth < depth := by have := hr.depth; omega
    rw [apply, apply]
    simp only [hd, hd', if_false]
    cases hop : d.operator
    all_goals simp only
    case raw | hexText | base64Text => exact OkReplays.pure fun _ h => h
    case config => exact OkReplays.pure fun _ h => by cases h
    case obfuscated =>
      refine OkReplays.pure fun v h => ?_
      cases hdecode : r.gate.decode d.payload path with
      | error e => simp [hdecode, Except.map] at h
      | ok s => simpa [hr.decode _ _ _ hdecode, hdecode] using h
    case secretFile n =>
      split
      · exact OkReplays.pure fun _ h => by cases h
      · exact OkReplays.secretFile _ _
    case env =>
      refine OkReplays.lookupEnv _ (fun t => ?keeps) (fun t => ?replays)
      case keeps =>
        split
        · exact Keeps.pure _
        · exact apply_keeps r fuel path _ _
      case replays =>
        split
        · exact OkReplays.pure fun _ h => h
        · exact ih (by omega) _ _
    case file =>
      refine OkReplays.readFile _ (fun c => ?keeps) (fun e => rfl) (fun c => ?replays)
      case keeps =>
        dsimp only
        split
        · exact Keeps.pure _
        · exact apply_keeps r fuel path _ _
      case replays =>
        dsimp only
        split
        · exact OkReplays.pure fun _ h => h
        · exact ih (by omega) _ _
    case bool | int =>
      refine OkReplays.map ?_ _ fun res a h => ?_
      · split
        · exact OkReplays.pure fun _ h => h
        · exact ih (by omega) _ _
      · cases res with
        | ok b => exact ⟨b, rfl⟩
        | error e => cases h

/-! ### Applying a directive that failed, again -/

/-- Whenever `x` fails, `y`, run on a machine with the files and environment
`x` ended with, fails the same way. -/
def ErrReplays {α : Type} (x y : StateM Machine (Except ConfigError α)) : Prop :=
  ∀ w w' e, (x.run w).1 = .error e → w'.store = (x.run w).2.store → w'.env = (x.run w).2.env →
    (y.run w').1 = .error e

theorem ErrReplays.pure {α : Type} (a : Except ConfigError α) : ErrReplays (Pure.pure a) (Pure.pure a) :=
  fun _ _ _ h _ _ => h

/-- A result mapped so that a failure stays the same failure replays its
failures: a failure of the computation fails again, and a success succeeds
again with the same value. -/
theorem ErrReplays.map {α β : Type} {x y : StateM Machine (Except ConfigError α)} (hok : OkReplays x y)
    (herr : ErrReplays x y) (g : Except ConfigError α → Except ConfigError β)
    (hg : ∀ e, g (.error e) = .error e) :
    ErrReplays (x >>= fun r => Pure.pure (g r)) (y >>= fun r => Pure.pure (g r)) := by
  intro w w' e h hstore henv
  rw [run_bind_pure] at h hstore henv ⊢
  cases hx : (x.run w).1 with
  | error e₀ =>
    rw [hx, hg] at h
    rw [herr w w' e₀ hx hstore henv, hg, h]
  | ok b =>
    rw [hx] at h
    rw [(hok w w' b hx (Covers.of_eq hstore henv)).1, h]

theorem ErrReplays.lookupEnv {α : Type} {f g : String → StateM Machine (Except ConfigError α)}
    (payload : String) (hf : ∀ t, Keeps (f t)) (h : ∀ t, ErrReplays (f t) (g t)) :
    ErrReplays (Resolver.lookupEnv payload >>= f) (Resolver.lookupEnv payload >>= g) := by
  intro w w' e hrun hstore henv
  rw [run_bind_of_snd _ _ _ (lookupEnv_run_snd payload w)] at hrun hstore henv
  have henv' : w'.env = w.env := henv.trans (hf _ w).env
  rw [run_bind_of_snd _ _ _ (lookupEnv_run_snd payload w'), lookupEnv_run_congr payload henv']
  exact h _ w w' e hrun hstore henv

/-- A file read first replays a failure: a file that was read is read again,
and a read that failed fails again on the same files. -/
theorem ErrReplays.readFile {α : Type} {f g : Except ConfigError String → StateM Machine (Except ConfigError α)}
    (path : String) (hf : ∀ c, Keeps (f (.ok c))) (hferr : ∀ e, f (.error e) = Pure.pure (.error e))
    (hgerr : ∀ e, g (.error e) = Pure.pure (.error e)) (h : ∀ c, ErrReplays (f (.ok c)) (g (.ok c))) :
    ErrReplays (Resolver.readFile path >>= f) (Resolver.readFile path >>= g) := by
  intro w w' e hrun hstore henv
  rw [run_bind_of_snd _ _ _ (by rw [readFile_run]), readFile_run] at hrun hstore henv
  rw [run_bind_of_snd _ _ _ (by rw [readFile_run]), readFile_run]
  cases hread : w.store.readText path with
  | error e₀ =>
    simp only [hread, Except.mapError, hferr] at hrun hstore
    have hsame : w'.store = w.store := hstore
    simp only [hsame, hread, Except.mapError, hgerr]
    exact hrun
  | ok c =>
    simp only [hread, Except.mapError] at hrun hstore henv
    have hread' : w'.store.readText path = .ok c := by rw [hstore]; exact (hf c w).readText hread
    simp only [hread', Except.mapError]
    exact h c w w' e hrun hstore henv

theorem ErrReplays.secretFile (path : String) (n : Nat) :
    ErrReplays (Resolver.secretFile path n >>= fun res => Pure.pure (res.map fun s => some (Value.str s)))
      (Resolver.secretFile path n >>= fun res => Pure.pure (res.map fun s => some (Value.str s))) :=
  ErrReplays.map (fun _ _ _ h hcov => secretFile_replay h hcov)
    (fun _ _ _ h hstore _ => secretFile_replay_error h (hstore.trans (secretFile_store_of_error h).1))
    _ fun _ => rfl

/-- A directive that failed fails again the same way, on a machine with the
files and environment it ended with. -/
theorem apply_replay_error (r : Resolver) (fuel : Nat) (path : KeyPath) (d : Directive) (depth : Nat) :
    ErrReplays (r.apply fuel path d depth) (r.apply fuel path d depth) := by
  induction fuel generalizing d depth with
  | zero =>
    rw [apply]
    split <;> exact ErrReplays.pure _
  | succ fuel ih =>
    rw [apply]
    by_cases hd : r.maxDepth < depth
    · simp only [hd, if_true]
      exact ErrReplays.pure _
    simp only [hd, if_false]
    cases hop : d.operator
    all_goals simp only
    case raw | hexText | base64Text | config | obfuscated => exact ErrReplays.pure _
    case secretFile n =>
      split
      · exact ErrReplays.pure _
      · exact ErrReplays.secretFile _ _
    case env =>
      refine ErrReplays.lookupEnv _ (fun t => ?keeps) (fun t => ?replays)
      case keeps =>
        split
        · exact Keeps.pure _
        · exact apply_keeps r fuel path _ _
      case replays =>
        split
        · exact ErrReplays.pure _
        · exact ih _ _
    case file =>
      refine ErrReplays.readFile _ (fun c => ?keeps) (fun e => rfl) (fun e => rfl) (fun c => ?replays)
      case keeps =>
        dsimp only
        split
        · exact Keeps.pure _
        · exact apply_keeps r fuel path _ _
      case replays =>
        dsimp only
        split
        · exact ErrReplays.pure _
        · exact ih _ _
    case bool | int =>
      refine ErrReplays.map ?_ ?_ _ fun e => rfl
      · split
        · exact OkReplays.pure fun _ h => h
        · exact apply_replay (Extends.refl r) (Nat.le_refl _) _ _ _
      · split
        · exact ErrReplays.pure _
        · exact ih _ _

/-! ### Visiting a leaf again -/

/-- A leaf visit that succeeded succeeds again with the same answer and notes
under a resolver that extends its own, on a machine that covers the one it
ended with, and leaves that machine as it was. -/
theorem visitLeaf_replay {r r' : Resolver} (hr : r.Extends r') (path : KeyPath) (leaf : String)
    (s : List Deferred) {w w' : Machine} {a : Visit}
    (h : (Value.runAt (r.visitLeaf path leaf : StateT (List Deferred) (StateM Machine) _) s w).1.1 = .ok a)
    (hcov : (Value.runAt (r.visitLeaf path leaf : StateT (List Deferred) (StateM Machine) _) s w).2.Covers w') :
    (Value.runAt (r'.visitLeaf path leaf : StateT (List Deferred) (StateM Machine) _) s w').1 =
        (Value.runAt (r.visitLeaf path leaf : StateT (List Deferred) (StateM Machine) _) s w).1 ∧
      (Value.runAt (r'.visitLeaf path leaf : StateT (List Deferred) (StateM Machine) _) s w').2.store = w'.store ∧
      (Value.runAt (r'.visitLeaf path leaf : StateT (List Deferred) (StateM Machine) _) s w').2.env = w'.env := by
  cases hparse : Directive.parse leaf with
  | none =>
    rw [visitLeaf_runAt_none r path hparse, visitLeaf_runAt_none r' path hparse]
    exact ⟨rfl, rfl, rfl⟩
  | some d =>
    by_cases hc : d.operator = .config
    · rw [visitLeaf_runAt_config r path hparse hc, visitLeaf_runAt_config r' path hparse hc]
      exact ⟨rfl, rfl, rfl⟩
    · rw [visitLeaf_runAt_apply r path hparse hc] at h hcov ⊢
      rw [visitLeaf_runAt_apply r' path hparse hc]
      cases hres : ((r.apply (r.maxDepth + 1) path d 0 : StateM Machine _).run w).1 with
      | error e => simp [hres, Except.map] at h
      | ok b =>
        obtain ⟨hres', hstore, henv⟩ :=
          apply_replay hr (Nat.succ_le_succ hr.depth) path d 0 w w' b hres hcov
        simp only [hres', hstore, henv, and_self]

/-- A leaf visit that failed fails again the same way on a machine with the
files and environment it ended with. -/
theorem visitLeaf_replay_error (r : Resolver) (path : KeyPath) (leaf : String) (s : List Deferred)
    {w w' : Machine} {e : ConfigError}
    (h : (Value.runAt (r.visitLeaf path leaf : StateT (List Deferred) (StateM Machine) _) s w).1.1 = .error e)
    (hstore : w'.store =
      (Value.runAt (r.visitLeaf path leaf : StateT (List Deferred) (StateM Machine) _) s w).2.store)
    (henv : w'.env = (Value.runAt (r.visitLeaf path leaf : StateT (List Deferred) (StateM Machine) _) s w).2.env) :
    (Value.runAt (r.visitLeaf path leaf : StateT (List Deferred) (StateM Machine) _) s w').1 =
      (Value.runAt (r.visitLeaf path leaf : StateT (List Deferred) (StateM Machine) _) s w).1 := by
  cases hparse : Directive.parse leaf with
  | none =>
    rw [visitLeaf_runAt_none r path hparse] at h
    cases h
  | some d =>
    by_cases hc : d.operator = .config
    · rw [visitLeaf_runAt_config r path hparse hc] at h
      cases h
    · rw [visitLeaf_runAt_apply r path hparse hc] at h hstore henv ⊢
      rw [visitLeaf_runAt_apply r path hparse hc]
      cases hres : ((r.apply (r.maxDepth + 1) path d 0 : StateM Machine _).run w).1 with
      | ok b => simp [hres, Except.map] at h
      | error e₀ =>
        rw [apply_replay_error r _ path d 0 w w' e₀ hres hstore henv]

/-- Leaf visits replay their successes on every machine that covers the end
of a run they are followed by, and the machine after the replay covers it too. -/
theorem visitLeaf_replaysSuccesses {r r' : Resolver} (hr : r.Extends r') (W : Machine) :
    Value.ReplaysSuccesses (r.visitLeaf : KeyPath → String → StateT (List Deferred) (StateM Machine) _)
      r'.visitLeaf Steps W W.Covers := by
  intro path leaf s w a h hW w' hcov
  obtain ⟨hsame, hstore, henv⟩ := visitLeaf_replay hr path leaf s h (hW.machineCovers.trans hcov)
  exact ⟨hsame, hcov.trans (Covers.of_eq hstore henv)⟩

/-- On a machine with the files and environment a run ends with, leaf visits
replay their successes and their failures. -/
theorem visitLeaf_replays_same (r : Resolver) (W : Machine) :
    Value.ReplaysSuccesses (r.visitLeaf : KeyPath → String → StateT (List Deferred) (StateM Machine) _)
        r.visitLeaf Steps W (fun u => u.store = W.store ∧ u.env = W.env) ∧
      Value.ReplaysFailures (r.visitLeaf : KeyPath → String → StateT (List Deferred) (StateM Machine) _)
        r.visitLeaf W (fun u => u.store = W.store ∧ u.env = W.env) := by
  constructor
  · intro path leaf s w a h hW w' ⟨hstore, henv⟩
    obtain ⟨hsame, hstore', henv'⟩ :=
      visitLeaf_replay (Extends.refl r) path leaf s h (hW.machineCovers.trans (Covers.of_eq hstore henv))
    exact ⟨hsame, hstore'.trans hstore, henv'.trans henv⟩
  · intro path leaf s w e h hW w' ⟨hstore, henv⟩
    subst hW
    exact visitLeaf_replay_error r path leaf s h hstore henv

end Resolver

end LayeredConfig
