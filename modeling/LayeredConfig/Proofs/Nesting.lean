import Mathlib.Logic.Function.Iterate
import LayeredConfig.Proofs.Replay

/-! Nesting of directives. A directive is applied at a depth: a leaf at depth
`0`, and a text that a variable, a file or a coerced payload turns out to be,
one level deeper than the directive that met it. Past the resolver's limit
nothing runs: the directive fails at once with the limit, before the host is
asked for anything.

`Resolver.apply` counts the depth still allowed in its fuel. Here it is shown
that this fuel never decides anything, so `resolveText` satisfies the
recursion equation of one level, `applyWith`, with the limit checked first
(`resolveText_of_parse`). From it: which operators resolve a text they meet,
a `CONFIG:` met inside another directive is refused, and a chain of `BOOL:`
wrappers runs its innermost directive at the depth equal to its length, so a
chain one longer than the limit allows fails without running its last link.
A variable whose value names itself is resolved level after level down to
the limit and fails there, leaving the machine as it was. -/

namespace LayeredConfig

namespace Operator

/-- Whether an operator resolves a text it meets: the value of a variable, the
contents of a file, or the payload it coerces. -/
def reresolves : Operator → Bool
  | .env | .file | .bool | .int _ => true
  | _ => false

end Operator

namespace Directive

theorem parse_bool (payload : String) :
    parse ("BOOL:" ++ payload) = some ⟨.bool, payload⟩ := by
  simp [parse, Operator.plainTags, Operator.ofTag?]

/-- A text behind `n` tags `BOOL:`. -/
def boolWrapped : Nat → String → String
  | 0, text => text
  | n + 1, text => "BOOL:" ++ boolWrapped n text

end Directive

namespace Resolver

open Directive

def boolResult (res : Except ConfigError (Option Value)) : Except ConfigError (Option Value) :=
  res.map fun v => boolValue (Coerce.toBool v)

def intResult (path : KeyPath) (radix : Nat) (res : Except ConfigError (Option Value)) :
    Except ConfigError (Option Value) :=
  res.bind fun v =>
    match Coerce.toInt v radix with
    | .absent => .ok none
    | .null => .ok (some .null)
    | .value n => (numberValue n path v).map some

theorem boolResult_iterate_error (n : Nat) (e : ConfigError) :
    boolResult^[n] (.error e) = .error e :=
  Function.iterate_fixed rfl n

theorem boolResult_iterate_ok (n : Nat) (v : Option Value) :
    ∃ v', boolResult^[n] (.ok v) = .ok v' := by
  induction n generalizing v with
  | zero => exact ⟨v, rfl⟩
  | succ n ih =>
    rw [Function.iterate_succ_apply]
    exact ih _

variable {m : Type → Type} [Monad m] [Host m]

/-- One level of a directive: what its operator does with the payload, a text
it meets being resolved by `inner`. -/
def applyWith (r : Resolver) (path : KeyPath) (d : Directive)
    (inner : String → m (Except ConfigError (Option Value))) : m (Except ConfigError (Option Value)) := do
  match d.operator with
  | .raw => return .ok (some (.str d.payload))
  | .hexText =>
    return match Hex.decode (Utf8.encode d.payload) with
      | .ok bytes => utf8Value bytes path
      | .error e => .error (.invalidHex path e)
  | .base64Text =>
    return match Base64.decode .lenient (standardAlphabet d.payload) with
      | .ok bytes => utf8Value bytes path
      | .error e => .error (.invalidBase64 path e)
  | .env => inner (← lookupEnv d.payload)
  | .file =>
    match ← readFile d.payload with
    | .ok contents => inner contents
    | .error e => return .error e
  | .secretFile bytes =>
    if maxSecretBytes < bytes then return .error (.secretTooLarge path bytes maxSecretBytes)
    else return (← secretFile d.payload bytes).map fun s => some (.str s)
  | .bool => return (← inner d.payload).map fun v => boolValue (Coerce.toBool v)
  | .int radix =>
    return (← inner d.payload).bind fun v =>
      match Coerce.toInt v radix with
      | .absent => .ok none
      | .null => .ok (some .null)
      | .value n => (numberValue n path v).map some
  | .config => return .error (.configInRecursedOperator path)
  | .obfuscated => return (r.gate.decode d.payload path).map fun s => some (.str s)

/-- An operator that resolves no text it meets does the same whatever would
resolve one. -/
theorem applyWith_of_not_reresolves (r : Resolver) (path : KeyPath) {d : Directive}
    (hd : d.operator.reresolves = false) (inner inner' : String → m (Except ConfigError (Option Value))) :
    r.applyWith path d inner = r.applyWith path d inner' := by
  unfold applyWith
  cases hop : d.operator <;> simp_all [Operator.reresolves]

theorem apply_beyond_limit (r : Resolver) {depth : Nat} (hdepth : r.maxDepth < depth) (fuel : Nat)
    (path : KeyPath) (d : Directive) :
    r.apply (m := m) fuel path d depth = pure (.error (.recursionLimit path r.maxDepth)) := by
  rw [apply.eq_def]
  simp [hdepth]

theorem apply_succ (r : Resolver) (fuel : Nat) (path : KeyPath) (d : Directive) (depth : Nat) :
    r.apply (m := m) (fuel + 1) path d depth =
      if r.maxDepth < depth then pure (.error (.recursionLimit path r.maxDepth))
      else r.applyWith path d fun text =>
        match parse text with
        | none => pure (.ok (some (.str text)))
        | some d => r.apply fuel path d (depth + 1) := by
  rw [apply]
  rfl

/-- The fuel never runs out first: any fuel that reaches past the limit gives
the same answer. -/
theorem apply_fuel (r : Resolver) (path : KeyPath) {fuel fuel' : Nat} (d : Directive) (depth : Nat)
    (hfuel : r.maxDepth < fuel + depth) (hfuel' : r.maxDepth < fuel' + depth) :
    r.apply (m := m) fuel path d depth = r.apply fuel' path d depth := by
  induction fuel generalizing fuel' d depth with
  | zero =>
    have hdepth : r.maxDepth < depth := by omega
    rw [apply_beyond_limit r hdepth, apply_beyond_limit r hdepth]
  | succ fuel ih =>
    by_cases hdepth : r.maxDepth < depth
    · rw [apply_beyond_limit r hdepth, apply_beyond_limit r hdepth]
    obtain ⟨fuel', rfl⟩ : ∃ f, fuel' = f + 1 := ⟨fuel' - 1, by omega⟩
    rw [apply_succ, apply_succ]
    simp only [hdepth, if_false]
    congr 1
    funext text
    split
    · rfl
    · exact ih _ _ (by omega) (by omega)

theorem resolveText_eq_apply (r : Resolver) (path : KeyPath) {text : String} {d : Directive}
    (hd : parse text = some d) (depth : Nat) :
    r.resolveText (m := m) path text depth = r.apply (r.maxDepth + 1) path d depth := by
  rw [resolveText, hd]

/-- Resolving a directive text is one level of it, unless the depth is past
the limit: `resolveText` satisfies the recursion of unbounded nesting. -/
theorem resolveText_of_parse (r : Resolver) (path : KeyPath) {text : String} {d : Directive}
    (hd : parse text = some d) (depth : Nat) :
    r.resolveText (m := m) path text depth =
      if r.maxDepth < depth then pure (.error (.recursionLimit path r.maxDepth))
      else r.applyWith path d fun t => r.resolveText path t (depth + 1) := by
  rw [resolveText_eq_apply r path hd, apply_succ]
  by_cases hdepth : r.maxDepth < depth
  · simp only [hdepth, if_true]
  simp only [hdepth, if_false]
  congr 1
  funext t
  unfold resolveText
  cases parse t with
  | none => rfl
  | some d' => refine apply_fuel r path d' (depth + 1) ?_ ?_ <;> omega

theorem resolveText_beyond_limit (r : Resolver) (path : KeyPath) {text : String} {d : Directive}
    (hd : parse text = some d) {depth : Nat} (hdepth : r.maxDepth < depth) :
    r.resolveText (m := m) path text depth = pure (.error (.recursionLimit path r.maxDepth)) := by
  rw [resolveText_of_parse r path hd, if_pos hdepth]

theorem resolveText_within_limit (r : Resolver) (path : KeyPath) {text : String} {d : Directive}
    (hd : parse text = some d) {depth : Nat} (hdepth : depth ≤ r.maxDepth) :
    r.resolveText (m := m) path text depth = r.applyWith path d fun t => r.resolveText path t (depth + 1) := by
  rw [resolveText_of_parse r path hd, if_neg (Nat.not_lt.2 hdepth)]

section Reresolving

variable (r : Resolver) (path : KeyPath) {text p : String} {depth : Nat}

theorem resolveText_env (hd : parse text = some ⟨.env, p⟩) (hdepth : depth ≤ r.maxDepth) :
    r.resolveText (m := m) path text depth = lookupEnv p >>= fun t => r.resolveText path t (depth + 1) := by
  rw [resolveText_within_limit r path hd hdepth]
  rfl

theorem resolveText_file (hd : parse text = some ⟨.file, p⟩) (hdepth : depth ≤ r.maxDepth) :
    r.resolveText (m := m) path text depth = readFile p >>= fun res =>
      match res with
      | .ok contents => r.resolveText path contents (depth + 1)
      | .error e => pure (.error e) := by
  rw [resolveText_within_limit r path hd hdepth]
  rfl

theorem resolveText_bool [LawfulMonad m] (hd : parse text = some ⟨.bool, p⟩) (hdepth : depth ≤ r.maxDepth) :
    r.resolveText (m := m) path text depth = boolResult <$> r.resolveText path p (depth + 1) := by
  rw [resolveText_within_limit r path hd hdepth, map_eq_pure_bind]
  rfl

theorem resolveText_int [LawfulMonad m] {radix : Nat} (hd : parse text = some ⟨.int radix, p⟩)
    (hdepth : depth ≤ r.maxDepth) :
    r.resolveText (m := m) path text depth = intResult path radix <$> r.resolveText path p (depth + 1) := by
  rw [resolveText_within_limit r path hd hdepth, map_eq_pure_bind]
  rfl

/-- A reference met inside another directive has no leaf to be copied into. -/
theorem resolveText_config (hd : parse text = some ⟨.config, p⟩) (hdepth : depth ≤ r.maxDepth) :
    r.resolveText (m := m) path text depth = pure (.error (.configInRecursedOperator path)) := by
  rw [resolveText_within_limit r path hd hdepth]
  rfl

end Reresolving

/-- A directive behind `n` tags `BOOL:` runs `n` levels deeper, and each tag
coerces what the level below gives. -/
theorem resolveText_boolWrapped [LawfulMonad m] (r : Resolver) (path : KeyPath) {text : String}
    {d : Directive} (hd : parse text = some d) (n depth : Nat) :
    r.resolveText (m := m) path (boolWrapped n text) depth =
      boolResult^[n] <$> r.resolveText path text (depth + n) := by
  induction n generalizing depth with
  | zero => simp [boolWrapped]
  | succ n ih =>
    by_cases hdepth : r.maxDepth < depth
    · rw [boolWrapped, resolveText_beyond_limit r path (parse_bool _) hdepth,
        resolveText_beyond_limit r path hd (by omega), map_pure, boolResult_iterate_error]
    · have hlevels : depth + 1 + n = depth + (n + 1) := by omega
      rw [boolWrapped, resolveText_bool r path (parse_bool _) (by omega), ih, Functor.map_map,
        Function.iterate_succ', hlevels]
      rfl

/-- A variable whose value is its own directive is read once per level and
fails at the limit, with the machine as it was. -/
theorem resolveText_env_cycle (r : Resolver) (path : KeyPath) {text p : String}
    (hd : parse text = some ⟨.env, p⟩) (w : Machine)
    (hloop : ((lookupEnv p : StateM Machine String).run w).1 = text) (depth : Nat) :
    (r.resolveText (m := StateM Machine) path text depth).run w = (.error (.recursionLimit path r.maxDepth), w) := by
  -- induction on the levels left before the limit
  obtain ⟨k, hk⟩ : ∃ k, r.maxDepth < depth + k := ⟨r.maxDepth + 1, by omega⟩
  induction k generalizing depth with
  | zero =>
    rw [resolveText_beyond_limit r path hd (by omega)]
    rfl
  | succ k ih =>
    by_cases hdepth : r.maxDepth < depth
    · rw [resolveText_beyond_limit r path hd hdepth]
      rfl
    · rw [resolveText_env r path hd (by omega), run_bind_of_snd _ _ _ (lookupEnv_run_snd p w), hloop]
      exact ih (depth + 1) (by omega)

/-- Nesting of directives stops at the limit. A directive text at a depth past
the limit fails with the limit and runs nothing; within it, one level of the
directive runs and a text it meets is resolved one level deeper. Only `ENV`,
`FILE`, `BOOL` and the integer operators resolve a text they meet, and a
`CONFIG:` met within the limit is refused. So `r.maxDepth + 1` tags `BOOL:`
before any directive fail without running it, while `r.maxDepth` tags before a
`RAW:` succeed; and a variable whose value names itself fails at the limit. -/
theorem resolveText_nesting [LawfulMonad m] (r : Resolver) (path : KeyPath) :
    (∀ text d depth, parse text = some d →
      r.resolveText (m := m) path text depth =
        if r.maxDepth < depth then pure (.error (.recursionLimit path r.maxDepth))
        else r.applyWith path d fun t => r.resolveText path t (depth + 1)) ∧
    (∀ d : Directive, d.operator.reresolves = false →
      ∀ inner inner' : String → m (Except ConfigError (Option Value)),
        r.applyWith path d inner = r.applyWith path d inner') ∧
    (∀ text p depth, parse text = some ⟨.env, p⟩ → depth ≤ r.maxDepth →
      r.resolveText (m := m) path text depth = lookupEnv p >>= fun t => r.resolveText path t (depth + 1)) ∧
    (∀ text p depth, parse text = some ⟨.file, p⟩ → depth ≤ r.maxDepth →
      r.resolveText (m := m) path text depth = readFile p >>= fun res =>
        match res with
        | .ok contents => r.resolveText path contents (depth + 1)
        | .error e => pure (.error e)) ∧
    (∀ text p depth, parse text = some ⟨.bool, p⟩ → depth ≤ r.maxDepth →
      r.resolveText (m := m) path text depth = boolResult <$> r.resolveText path p (depth + 1)) ∧
    (∀ text radix p depth, parse text = some ⟨.int radix, p⟩ → depth ≤ r.maxDepth →
      r.resolveText (m := m) path text depth = intResult path radix <$> r.resolveText path p (depth + 1)) ∧
    (∀ text p depth, parse text = some ⟨.config, p⟩ → depth ≤ r.maxDepth →
      r.resolveText (m := m) path text depth = pure (.error (.configInRecursedOperator path))) ∧
    (∀ text d, parse text = some d →
      r.resolveText (m := m) path (boolWrapped (r.maxDepth + 1) text) 0 =
        pure (.error (.recursionLimit path r.maxDepth))) ∧
    (∀ text p, parse text = some ⟨.raw, p⟩ →
      ∃ v, r.resolveText (m := m) path (boolWrapped r.maxDepth text) 0 = pure (.ok v)) ∧
    (∀ (w : Machine) text p depth, parse text = some ⟨.env, p⟩ →
      ((lookupEnv p : StateM Machine String).run w).1 = text →
        (r.resolveText (m := StateM Machine) path text depth).run w = (.error (.recursionLimit path r.maxDepth), w)) := by
  refine ⟨fun _ _ depth hd => resolveText_of_parse r path hd depth,
    fun _ hd => applyWith_of_not_reresolves r path hd,
    fun _ _ _ hd hdepth => resolveText_env r path hd hdepth,
    fun _ _ _ hd hdepth => resolveText_file r path hd hdepth,
    fun _ _ _ hd hdepth => resolveText_bool r path hd hdepth,
    fun _ _ _ _ hd hdepth => resolveText_int r path hd hdepth,
    fun _ _ _ hd hdepth => resolveText_config r path hd hdepth, ?_, ?_,
    fun w _ _ depth hd hloop => resolveText_env_cycle r path hd w hloop depth⟩
  · intro text d hd
    rw [resolveText_boolWrapped r path hd, Nat.zero_add,
      resolveText_beyond_limit r path hd (Nat.lt_succ_self _), map_pure, boolResult_iterate_error]
  · intro text p hd
    obtain ⟨v, hv⟩ := boolResult_iterate_ok r.maxDepth (some (.str p))
    refine ⟨v, ?_⟩
    rw [resolveText_boolWrapped r path hd, Nat.zero_add, resolveText_within_limit r path hd le_rfl,
      ← hv]
    exact map_pure _ _

theorem resolveText_nesting_loop :
    let r : Resolver := ⟨.bootstrapping, 1⟩
    let w : Machine := ⟨.fixed [("LOOP", "ENV:LOOP")], .exact [] none [], .pattern [], .pattern []⟩
    (r.resolveText (m := StateM Machine) [.key "a"] "ENV:LOOP" 0).run w = (.error (.recursionLimit [.key "a"] 1), w) ∧
    r.resolveText (m := StateM Machine) [.key "a"] "BOOL:BOOL:FILE:/x" 0 =
      pure (.error (.recursionLimit [.key "a"] 1)) ∧
    ∃ v, r.resolveText (m := StateM Machine) [.key "a"] "BOOL:RAW:yes" 0 = pure (.ok v) := by
  intro r w
  obtain ⟨-, -, -, -, -, -, -, hchain, hraw, hcycle⟩ := resolveText_nesting (m := StateM Machine) r [.key "a"]
  exact ⟨hcycle w "ENV:LOOP" "LOOP" 0 (by decide) rfl, hchain "FILE:/x" ⟨.file, "/x"⟩ (by decide),
    hraw "RAW:yes" "yes" (by decide)⟩

end Resolver

end LayeredConfig
