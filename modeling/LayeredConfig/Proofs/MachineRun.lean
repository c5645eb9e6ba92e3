import LayeredConfig.Proofs.SecretSteps
import LayeredConfig.Proofs.Resolve
import LayeredConfig.Proofs.WalkState

/-! The resolver run on a model machine: what each host operation does to the
machine, that applying a directive moves it along secret-file steps only, and
how a visit of the first pass and a whole resolution unfold into runs. -/

namespace LayeredConfig

namespace Resolver

open Machine

theorem readFile_run (path : String) (w : Machine) : (readFile path : StateM Machine _).run w =
    ((w.store.readText path).mapError (.fileRead path), w) := by
  simp [readFile, Host.readText]
  cases w.store.readText path <;> rfl

theorem secretFile_run (path : String) (n : Nat) (w : Machine) :
    (secretFile path n : StateM Machine _).run w =
      if w.store.pathExists path then ((w.store.readText path).mapError (.fileRead path), w)
      else
        match w.store.createNew path (Utf8.encode (Hex.encode (w.random.fill n).1)) with
        | .ok store => (.ok (Hex.encode (w.random.fill n).1), { w with random := (w.random.fill n).2, store := store })
        | .error e =>
          if e.kind = .alreadyExists then
            ((w.store.readText path).mapError (.fileRead path), { w with random := (w.random.fill n).2 })
          else (.error (.fileWrite path e), { w with random := (w.random.fill n).2 }) := by
  by_cases hexists : w.store.pathExists path
  · simp [secretFile, Host.pathExists, hexists, readFile_run]
  · simp [secretFile, Host.pathExists, Host.randomBytes, Host.createNew, hexists]
    cases w.store.createNew path (Utf8.encode (Hex.encode (w.random.fill n).1)) with
    | ok store => rfl
    | error e =>
      by_cases hk : e.kind = .alreadyExists
      · simp [hk, readFile_run]
      · simp [hk]
        rfl

theorem mapError_eq_ok {ε ε' α : Type} {f : ε → ε'} {x : Except ε α} {a : α} :
    x.mapError f = .ok a ↔ x = .ok a := by
  cases x <;> simp [Except.mapError]

theorem secretFile_steps (w : Machine) (path : String) {n : Nat} (hn : n ≤ maxSecretBytes) :
    Steps w ((secretFile path n : StateM Machine _).run w).2 := by
  rw [secretFile_run]
  split
  · exact Steps.refl w
  · split
    · rename_i store hcreate
      exact (SecretStep.create w hn hcreate).steps
    · split <;> exact (SecretStep.draw w hn).steps

theorem secretFile_holds {w : Machine} {path : String} {n : Nat} {s : String}
    (h : ((secretFile path n : StateM Machine _).run w).1 = .ok s) :
    ((secretFile path n : StateM Machine _).run w).2.store.readText path = .ok s := by
  rw [secretFile_run] at h ⊢
  by_cases hexists : w.store.pathExists path
  · simp only [hexists, if_true] at h ⊢
    exact mapError_eq_ok.1 h
  · simp only [hexists, Bool.false_eq_true, if_false] at h ⊢
    cases hcreate : w.store.createNew path (Utf8.encode (Hex.encode (w.random.fill n).1)) with
    | ok store =>
      simp only [hcreate, Except.ok.injEq] at h ⊢
      rw [← h]
      exact Store.readText_createNew_self hcreate
    | error e =>
      simp only [hcreate] at h ⊢
      by_cases hkind : e.kind = .alreadyExists
      · simp only [hkind, if_true] at h ⊢
        exact mapError_eq_ok.1 h
      · simp [hkind] at h

/-- A computation on a machine that takes it along secret-file steps only. -/
def Keeps {α : Type} (x : StateM Machine α) : Prop := ∀ w : Machine, Steps w (x.run w).2

theorem Keeps.pure {α : Type} (a : α) : Keeps (pure a : StateM Machine α) := fun w => Steps.refl w

theorem Keeps.bind {α β : Type} {x : StateM Machine α} {f : α → StateM Machine β} (hx : Keeps x)
    (hf : ∀ a, Keeps (f a)) : Keeps (x >>= f) :=
  fun w => (hx w).trans (hf _ _)

theorem Keeps.of_run {α : Type} {x : StateM Machine α} (h : ∀ w, (x.run w).2 = w) : Keeps x :=
  fun w => by rw [h w]; exact Steps.refl w

theorem lookupEnv_run_snd (payload : String) (w : Machine) :
    ((lookupEnv payload : StateM Machine String).run w).2 = w := by
  simp only [lookupEnv, Host.envVar]
  simp
  split <;> rfl

theorem secretFile_keeps (path : String) {n : Nat} (hn : n ≤ maxSecretBytes) :
    Keeps (secretFile path n : StateM Machine _) :=
  fun w => secretFile_steps w path hn

/-- Applying a directive only reads the machine, except for secret files. -/
theorem apply_keeps (r : Resolver) (fuel : Nat) (path : KeyPath) (d : Directive) (depth : Nat) :
    Keeps (r.apply fuel path d depth : StateM Machine _) := by
  induction fuel generalizing d depth with
  | zero =>
    rw [apply]
    split <;> exact Keeps.pure _
  | succ fuel ih =>
    rw [apply]
    split
    · exact Keeps.pure _
    · split
      case h_4 =>
        refine Keeps.bind (Keeps.of_run (lookupEnv_run_snd _)) fun text => ?_
        dsimp only
        split
        · exact Keeps.pure _
        · exact ih _ _
      case h_5 =>
        refine Keeps.bind (Keeps.of_run fun w => by rw [readFile_run]) fun res => ?_
        cases res with
        | ok contents =>
          dsimp only
          split
          · exact Keeps.pure _
          · exact ih _ _
        | error e => exact Keeps.pure _
      case h_6 n _ =>
        -- a secret file too large is refused before the machine is touched
        split
        · exact Keeps.pure _
        · exact Keeps.bind (secretFile_keeps _ (Nat.le_of_not_lt ‹_›)) fun _ => Keeps.pure _
      case h_7 | h_8 =>
        refine Keeps.bind ?_ fun _ => Keeps.pure _
        dsimp only
        split
        · exact Keeps.pure _
        · exact ih _ _
      all_goals exact Keeps.pure _

variable {m : Type → Type} [Monad m] [Host m]

/-- Within the depth limit, a secret-file directive refuses a size above the
limit and otherwise reads the secret file. -/
theorem apply_secretFile (r : Resolver) {depth : Nat} (hdepth : depth ≤ r.maxDepth) (fuel : Nat)
    (path : KeyPath) (n : Nat) (payload : String) :
    r.apply (m := m) (fuel + 1) path ⟨.secretFile n, payload⟩ depth =
      if maxSecretBytes < n then pure (.error (.secretTooLarge path n maxSecretBytes))
      else secretFile payload n >>= fun res => pure (res.map fun s => some (.str s)) := by
  rw [apply]
  simp [Nat.not_lt.2 hdepth]

theorem visitLeaf_runAt_none (r : Resolver) (path : KeyPath) {leaf : String}
    (hparse : Directive.parse leaf = none) (s : List Deferred) (w : Machine) :
    Value.runAt (r.visitLeaf path leaf : StateT (List Deferred) (StateM Machine) _) s w = ((.ok .keep, s), w) := by
  simp [visitLeaf, hparse, Value.runAt]
  rfl

theorem visitLeaf_runAt_config (r : Resolver) (path : KeyPath) {leaf : String} {d : Directive}
    (hparse : Directive.parse leaf = some d) (hd : d.operator = .config) (s : List Deferred) (w : Machine) :
    Value.runAt (r.visitLeaf path leaf : StateT (List Deferred) (StateM Machine) _) s w =
      ((.ok .keep, s ++ [⟨path, d.payload⟩]), w) := by
  simp [visitLeaf, hparse, hd, Value.runAt]
  rfl

theorem visitLeaf_runAt_apply (r : Resolver) (path : KeyPath) {leaf : String} {d : Directive}
    (hparse : Directive.parse leaf = some d) (hd : d.operator ≠ .config) (s : List Deferred) (w : Machine) :
    Value.runAt (r.visitLeaf path leaf : StateT (List Deferred) (StateM Machine) _) s w =
      ((((r.apply (r.maxDepth + 1) path d 0 : StateM Machine _).run w).1.map
        (fun | some v => .replace v | none => .remove), s), ((r.apply (r.maxDepth + 1) path d 0 : StateM Machine _).run w).2) := by
  simp [visitLeaf, hparse, hd, Value.runAt]
  rfl

theorem visitLeaf_steps (r : Resolver) (path : KeyPath) (leaf : String) (s : List Deferred) (w : Machine) :
    Steps w (Value.runAt (r.visitLeaf path leaf : StateT (List Deferred) (StateM Machine) _) s w).2 := by
  cases hparse : Directive.parse leaf with
  | none =>
    rw [visitLeaf_runAt_none r path hparse]
    exact Steps.refl w
  | some d =>
    by_cases hc : d.operator = .config
    · rw [visitLeaf_runAt_config r path hparse hc]
      exact Steps.refl w
    · rw [visitLeaf_runAt_apply r path hparse hc]
      exact apply_keeps r _ path d 0 w

theorem visitLeaf_notes (r : Resolver) (path : KeyPath) (leaf : String) (s : List Deferred) (w : Machine) :
    (Value.runAt (r.visitLeaf path leaf : StateT (List Deferred) (StateM Machine) _) s w).1.2 =
      s ++ noteOf path leaf := by
  cases hparse : Directive.parse leaf with
  | none => simp [visitLeaf_runAt_none r path hparse, noteOf, hparse]
  | some d =>
    by_cases hc : d.operator = .config
    · simp [visitLeaf_runAt_config r path hparse hc, noteOf, hparse, hc]
    · simp [visitLeaf_runAt_apply r path hparse hc, noteOf, hparse, hc]

theorem resolveTree_run (r : Resolver) {tree walked : Value} {failure : Option ConfigError}
    {noted : List Deferred} {w w' : Machine}
    (hrun : Value.runAt (Value.walk (r.visitLeaf : KeyPath → String → StateT (List Deferred) (StateM Machine) _)
      tree) [] w = (((walked, failure), noted), w')) :
    (r.resolveTree tree : StateM Machine _).run w =
      (match failure with
      | some e => (walked, some e)
      | none => (walked.fillDeferred noted, none), w') := by
  unfold resolveTree
  unfold Value.runAt at hrun
  simp only [StateT.run_bind, hrun]
  cases failure <;> rfl

end Resolver

end LayeredConfig
