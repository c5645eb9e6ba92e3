import LayeredConfig.Proofs.Nesting

/-! What a directive can resolve to. Every operator gives a text, a boolean or
a number, and a coerced integer is an integer or a finite double, so a
resolution that succeeds gives nothing or such a scalar, on any host. Since
`null` never comes back, the `null` outcome of coercing a resolved payload is
never taken. Nothing comes back only from `BOOL` and the integer operators,
when their payload resolves to the empty text or to nothing; variables and
files hand on what the text they read resolves to. So the first pass of a
resolution writes scalars only, and every array and object of the tree it
leaves stood at the same place in the input. -/

namespace LayeredConfig

open scoped List

namespace Value

/-- A value a directive can resolve to: a text, a boolean, an integer or a
finite double. -/
def IsScalar : Value → Prop
  | .str _ | .bool _ | .num (.int _) => True
  | .num (.float x) => x.isFinite = true
  | .null | .arr _ | .obj _ => False

theorem IsScalar.ne_null {v : Value} (h : v.IsScalar) : v ≠ .null := by
  rintro rfl
  exact h

end Value

namespace Operator

/-- Whether an operator coerces its resolved payload. -/
def coerces : Operator → Bool
  | .bool | .int _ => true
  | _ => false

end Operator

namespace Coerce

theorem toBool_eq_null_iff (o : Option Value) : toBool o = .null ↔ o = some .null := by
  rcases o with _ | (_ | _ | _ | s | _ | _) <;> simp [toBool]
  split <;> simp

theorem toInt_eq_null_iff (o : Option Value) (radix : Nat) : toInt o radix = .null ↔ o = some .null := by
  rcases o with _ | (_ | _ | _ | s | _ | _) <;> simp [toInt]
  split <;> simp

theorem toBool_eq_absent_iff (o : Option Value) : toBool o = .absent ↔ o = none ∨ o = some (.str "") := by
  rcases o with _ | (_ | _ | _ | s | _ | _) <;> simp [toBool]

theorem toInt_eq_absent_iff (o : Option Value) (radix : Nat) :
    toInt o radix = .absent ↔ o = none ∨ o = some (.str "") := by
  rcases o with _ | (_ | _ | _ | s | _ | _) <;> simp [toInt]

end Coerce

namespace Resolver

/-- A resolution that succeeds gives nothing or a scalar. -/
def GivesScalar (res : Except ConfigError (Option Value)) : Prop :=
  ∀ o, res = .ok o → ∀ v ∈ o, v.IsScalar

theorem givesScalar_error (e : ConfigError) : GivesScalar (.error e) := fun _ h => by cases h

theorem GivesScalar.ne_null {o : Option Value} (h : GivesScalar (.ok o)) : o ≠ some .null := by
  rintro rfl
  exact (h _ rfl .null rfl).ne_null rfl

theorem givesScalar_text (s : String) : GivesScalar (.ok (some (.str s))) := by
  rintro o ⟨⟩ v ⟨⟩
  trivial

theorem givesScalar_utf8Value (bytes : List UInt8) (path : KeyPath) : GivesScalar (utf8Value bytes path) := by
  unfold utf8Value
  split
  · exact givesScalar_text _
  · exact givesScalar_error _

theorem givesScalar_text_map (res : Except ConfigError String) :
    GivesScalar (res.map fun s => some (.str s)) := by
  cases res with
  | error e => exact givesScalar_error e
  | ok s => exact givesScalar_text s

/-- A coerced integer is an integer, or a double that is finite. -/
theorem numberValue_isScalar {n : Binary64} {path : KeyPath} {input : Option Value} {v : Value}
    (h : numberValue n path input = .ok v) : v.IsScalar := by
  simp only [numberValue] at h
  split_ifs at h with hint hnan hfin
  · cases h
    trivial
  · cases h
    exact hfin

theorem givesScalar_boolResult {res : Except ConfigError (Option Value)} (h : GivesScalar res) :
    GivesScalar (boolResult res) := by
  rintro o ho v hv
  cases res with
  | error e => cases ho
  | ok o' =>
    simp only [boolResult, Except.map, Except.ok.injEq] at ho
    subst ho
    have hnull : Coerce.toBool o' ≠ .null := fun hn => h.ne_null ((Coerce.toBool_eq_null_iff o').1 hn)
    revert hv hnull
    cases Coerce.toBool o' with
    | absent => simp [boolValue]
    | null => intro _ hn; exact absurd rfl hn
    | value b => intro hv _; cases hv; trivial

theorem givesScalar_intResult {res : Except ConfigError (Option Value)} (path : KeyPath) (radix : Nat)
    (h : GivesScalar res) : GivesScalar (intResult path radix res) := by
  rintro o ho v hv
  cases res with
  | error e => cases ho
  | ok o' =>
    simp only [intResult, Except.bind] at ho
    have hnull : Coerce.toInt o' radix ≠ .null := fun hn =>
      h.ne_null ((Coerce.toInt_eq_null_iff o' radix).1 hn)
    rcases hc : Coerce.toInt o' radix with _ | _ | n
    · rw [hc] at ho
      cases ho
      cases hv
    · exact absurd hc hnull
    · rw [hc] at ho
      cases hnv : numberValue n path o' with
      | error e => simp [hnv, Except.map] at ho
      | ok x =>
        simp only [hnv, Except.map, Except.ok.injEq] at ho
        subst ho
        cases hv
        exact numberValue_isScalar hnv

variable {m : Type → Type} [Monad m] [LawfulMonad m] [Host m]

/-- One level of a directive gives a scalar or nothing when every text it meets
resolves so. -/
theorem applyWith_givesScalar (r : Resolver) (path : KeyPath) (d : Directive)
    {inner : String → m (Except ConfigError (Option Value))}
    (hinner : ∀ t, SatisfiesM GivesScalar (inner t)) : SatisfiesM GivesScalar (r.applyWith path d inner) := by
  unfold applyWith
  cases d.operator with
  | raw => exact SatisfiesM.pure (givesScalar_text _)
  | hexText | base64Text =>
    refine SatisfiesM.pure ?_
    split
    · exact givesScalar_utf8Value _ _
    · exact givesScalar_error _
  | env => exact SatisfiesM.bind_pre (SatisfiesM.of_true fun t => hinner t)
  | file =>
    refine SatisfiesM.bind_pre (SatisfiesM.of_true fun res => ?_)
    cases res with
    | ok contents => exact hinner contents
    | error e => exact SatisfiesM.pure (givesScalar_error e)
  | secretFile bytes =>
    simp only
    split
    · exact SatisfiesM.pure (givesScalar_error _)
    · exact SatisfiesM.bind_pre (SatisfiesM.of_true fun res => SatisfiesM.pure (givesScalar_text_map res))
  | bool => exact (hinner _).bind fun res hres => SatisfiesM.pure (givesScalar_boolResult hres)
  | int radix => exact (hinner _).bind fun res hres => SatisfiesM.pure (givesScalar_intResult path radix hres)
  | config => exact SatisfiesM.pure (givesScalar_error _)
  | obfuscated => exact SatisfiesM.pure (givesScalar_text_map _)

theorem apply_givesScalar (r : Resolver) (fuel : Nat) (path : KeyPath) (d : Directive) (depth : Nat) :
    SatisfiesM GivesScalar (r.apply (m := m) fuel path d depth) := by
  induction fuel generalizing d depth with
  | zero =>
    rw [apply]
    split <;> exact SatisfiesM.pure (givesScalar_error _)
  | succ fuel ih =>
    rw [apply_succ]
    split
    · exact SatisfiesM.pure (givesScalar_error _)
    · refine applyWith_givesScalar r path d fun t => ?_
      split
      · exact SatisfiesM.pure (givesScalar_text _)
      · exact ih _ _

/-- Resolving a text, on any host, gives nothing or a scalar when it succeeds. -/
theorem resolveText_givesScalar (r : Resolver) (path : KeyPath) (text : String) (depth : Nat) :
    SatisfiesM GivesScalar (r.resolveText (m := m) path text depth) := by
  unfold resolveText
  split
  · exact SatisfiesM.pure (givesScalar_text _)
  · exact apply_givesScalar r _ path _ depth

/-- A visit of the first pass replaces a leaf by a scalar only, and notes the
leaf's reference. -/
theorem visitLeaf_scalar (r : Resolver) (path : KeyPath) (leaf : String) (s : List Deferred) :
    SatisfiesM (fun res : Except ConfigError Visit × List Deferred => ∀ a, res.1 = .ok a →
      (∀ v ∈ a.outcome (.str leaf), v.IsScalar) ∧ res.2 = s ++ noteOf path leaf)
      ((r.visitLeaf path leaf : StateT (List Deferred) m _).run s) := by
  unfold visitLeaf noteOf
  cases hparse : Directive.parse leaf with
  | none => exact SatisfiesM.pure fun a ha => by cases ha; exact ⟨fun v hv => by cases hv; trivial, by simp⟩
  | some d =>
    by_cases hc : d.operator = .config
    · simp only [hc, if_true, bind_pure_comp, StateT.run_map, StateT.run_modify, map_pure]
      exact SatisfiesM.pure fun a ha => by cases ha; exact ⟨fun v hv => by cases hv; trivial, rfl⟩
    · simp only [hc, if_false, List.append_nil, bind_pure_comp, StateT.run_map, StateT.run_monadLift,
        monadLift_self, Functor.map_map]
      refine SatisfiesM.map_pre ((apply_givesScalar r _ path d 0).imp fun {res} hres a ha => ⟨?_, rfl⟩)
      cases res with
      | error e => cases ha
      | ok o => cases o <;> cases ha <;> exact hres _ rfl

/-! ### Where nothing comes from -/

/-- A coerced boolean is absent exactly when the payload resolved to nothing or
to the empty text. -/
theorem boolResult_eq_absent_iff (res : Except ConfigError (Option Value)) :
    boolResult res = .ok none ↔ res = .ok none ∨ res = .ok (some (.str "")) := by
  cases res with
  | error e => simp [boolResult, Except.map]
  | ok o =>
    simp only [boolResult, Except.map, Except.ok.injEq]
    rw [← Coerce.toBool_eq_absent_iff]
    cases Coerce.toBool o <;> simp [boolValue]

/-- A coerced integer is absent exactly when the payload resolved to nothing or
to the empty text. -/
theorem intResult_eq_absent_iff (path : KeyPath) (radix : Nat) (res : Except ConfigError (Option Value)) :
    intResult path radix res = .ok none ↔ res = .ok none ∨ res = .ok (some (.str "")) := by
  cases res with
  | error e => simp [intResult, Except.bind]
  | ok o =>
    simp only [intResult, Except.bind, Except.ok.injEq]
    rw [← Coerce.toInt_eq_absent_iff o radix]
    cases Coerce.toInt o radix with
    | absent => simp
    | null => simp
    | value n => cases hn : numberValue n path o <;> simp [Except.map, hn]

theorem utf8Value_ne_absent (bytes : List UInt8) (path : KeyPath) : utf8Value bytes path ≠ .ok none := by
  unfold utf8Value
  split <;> simp

theorem text_map_ne_absent (res : Except ConfigError String) :
    (res.map fun s => some (Value.str s)) ≠ .ok none := by
  cases res <;> simp [Except.map]

theorem applyWith_ne_absent (r : Resolver) (path : KeyPath) {d : Directive} (hd : d.operator.reresolves = false)
    (inner : String → m (Except ConfigError (Option Value))) :
    SatisfiesM (· ≠ .ok none) (r.applyWith path d inner) := by
  unfold applyWith
  cases hop : d.operator <;> simp only [hop, Operator.reresolves, Bool.true_eq_false] at hd
  case raw => exact SatisfiesM.pure (by simp)
  case hexText | base64Text =>
    refine SatisfiesM.pure ?_
    split
    · exact utf8Value_ne_absent _ _
    · simp
  case secretFile bytes =>
    simp only
    split
    · exact SatisfiesM.pure (by simp)
    · exact SatisfiesM.bind_pre (SatisfiesM.of_true fun res => SatisfiesM.pure (text_map_ne_absent res))
  case config => exact SatisfiesM.pure (by simp)
  case obfuscated => exact SatisfiesM.pure (text_map_ne_absent _)

theorem SatisfiesM.run_fst {σ α : Type} {p : α → Prop} {x : StateM σ α} (h : SatisfiesM p x) (w : σ) :
    p (x.run w).1 := by
  have h' := SatisfiesM_StateT_eq.1 h w
  rw [SatisfiesM_Id_eq] at h'
  exact h'

theorem run_map_fst {σ α β : Type} (f : α → β) (x : StateM σ α) (w : σ) : ((f <$> x).run w).1 = f (x.run w).1 := by
  rw [map_eq_pure_bind, run_bind_pure]

/-- How resolving a text on a machine comes to nothing: a `BOOL` or integer
directive whose payload resolves to the empty text, or itself to nothing, and
variables and files whose text resolves to nothing. -/
inductive AbsentVia (r : Resolver) (path : KeyPath) (w : Machine) : String → Nat → Prop
  /-- A coercion of a payload that resolves to the empty text. -/
  | empty {text p : String} {op : Operator} {depth : Nat} : Directive.parse text = some ⟨op, p⟩ →
      op.coerces → depth ≤ r.maxDepth →
      ((r.resolveText (m := StateM Machine) path p (depth + 1)).run w).1 = .ok (some (.str "")) →
      AbsentVia r path w text depth
  /-- A coercion of a payload that resolves to nothing. -/
  | coerced {text p : String} {op : Operator} {depth : Nat} : Directive.parse text = some ⟨op, p⟩ →
      op.coerces → depth ≤ r.maxDepth → AbsentVia r path w p (depth + 1) → AbsentVia r path w text depth
  /-- A variable whose text resolves to nothing. -/
  | env {text p : String} {depth : Nat} : Directive.parse text = some ⟨.env, p⟩ → depth ≤ r.maxDepth →
      AbsentVia r path w ((lookupEnv p : StateM Machine String).run w).1 (depth + 1) →
      AbsentVia r path w text depth
  /-- A file whose contents resolve to nothing. -/
  | file {text p contents : String} {depth : Nat} : Directive.parse text = some ⟨.file, p⟩ →
      depth ≤ r.maxDepth → w.store.readText p = .ok contents → AbsentVia r path w contents (depth + 1) →
      AbsentVia r path w text depth

section Absence

variable {r : Resolver} {path : KeyPath} {w : Machine}

/-- A `BOOL` or integer directive resolves to nothing exactly when its payload
resolves to nothing or to the empty text. -/
theorem resolveText_coerces_absent_iff {text p : String} {op : Operator} {depth : Nat}
    (hparse : Directive.parse text = some ⟨op, p⟩) (hco : op.coerces) (hle : depth ≤ r.maxDepth) :
    ((r.resolveText (m := StateM Machine) path text depth).run w).1 = .ok none ↔
      ((r.resolveText (m := StateM Machine) path p (depth + 1)).run w).1 = .ok none ∨
      ((r.resolveText (m := StateM Machine) path p (depth + 1)).run w).1 = .ok (some (.str "")) := by
  cases op <;> simp only [Operator.coerces, Bool.false_eq_true] at hco
  · rw [resolveText_bool r path hparse hle, run_map_fst, boolResult_eq_absent_iff]
  · rw [resolveText_int r path hparse hle, run_map_fst, intResult_eq_absent_iff]

theorem absentVia_of_run {k : Nat} {text : String} {depth : Nat} (hk : r.maxDepth < depth + k)
    (h : ((r.resolveText (m := StateM Machine) path text depth).run w).1 = .ok none) :
    AbsentVia r path w text depth := by
  induction k generalizing text depth with
  | zero =>
    cases hparse : Directive.parse text with
    | none => rw [resolveText, hparse] at h; cases h
    | some d => rw [resolveText_beyond_limit r path hparse (by omega)] at h; cases h
  | succ k ih =>
    cases hparse : Directive.parse text with
    | none => rw [resolveText, hparse] at h; cases h
    | some d =>
      by_cases hdepth : r.maxDepth < depth
      · rw [resolveText_beyond_limit r path hparse hdepth] at h; cases h
      have hle : depth ≤ r.maxDepth := by omega
      obtain ⟨op, p⟩ := d
      cases hre : op.reresolves
      · rw [resolveText_within_limit r path hparse hle] at h
        exact absurd h (SatisfiesM.run_fst (applyWith_ne_absent (d := ⟨op, p⟩) r path hre _) w)
      by_cases hco : op.coerces
      · rcases (resolveText_coerces_absent_iff hparse hco hle).1 h with h | h
        · exact .coerced hparse hco hle (ih (by omega) h)
        · exact .empty hparse hco hle h
      cases op <;> simp only [Operator.reresolves, Operator.coerces, Bool.false_eq_true,
        not_true_eq_false] at hre hco
      case env =>
        rw [resolveText_env r path hparse hle, run_bind_of_snd _ _ _ (lookupEnv_run_snd p w)] at h
        exact .env hparse hle (ih (by omega) h)
      case file =>
        rw [resolveText_file r path hparse hle, run_bind_of_snd _ _ _ (by rw [readFile_run]), readFile_run] at h
        cases hread : w.store.readText p with
        | error e => simp [hread, Except.mapError] at h
        | ok contents =>
          simp only [hread, Except.mapError] at h
          exact .file hparse hle hread (ih (by omega) h)

theorem run_of_absentVia {text : String} {depth : Nat} (h : AbsentVia r path w text depth) :
    ((r.resolveText (m := StateM Machine) path text depth).run w).1 = .ok none := by
  induction h with
  | @empty text p op depth hparse hco hle hp =>
    exact (resolveText_coerces_absent_iff hparse hco hle).2 (.inr hp)
  | @coerced text p op depth hparse hco hle _ ih =>
    exact (resolveText_coerces_absent_iff hparse hco hle).2 (.inl ih)
  | @env text p depth hparse hle _ ih =>
    rw [resolveText_env r path hparse hle, run_bind_of_snd _ _ _ (lookupEnv_run_snd p w)]
    exact ih
  | @file text p contents depth hparse hle hread _ ih =>
    rw [resolveText_file r path hparse hle, run_bind_of_snd _ _ _ (by rw [readFile_run]), readFile_run, hread]
    exact ih

end Absence

end Resolver

/-! ### The tree the first pass leaves -/

namespace Value

theorem RewritesItems.length_eq {ok : KeyPath → String → Option Value → Prop} {p : KeyPath} {i : Nat}
    {items items' : List Value} (h : RewritesItems ok p i items items') : items'.length = items.length := by
  induction items generalizing i items' with
  | nil => cases h; rfl
  | cons v rest ih =>
    cases h with
    | cons _ hrest => simp [ih hrest]

/-- An outcome of the first pass: nothing or a scalar, whatever the leaf. -/
def ScalarOutcome (_ : KeyPath) (_ : String) (o : Option Value) : Prop := ∀ v ∈ o, v.IsScalar

section Scalars

variable {p : KeyPath} {v w : Value}

theorem Rewrites.arr_of_arr {items' : List Value} (h : Rewrites ScalarOutcome p v (some (.arr items'))) :
    ∃ items, v = .arr items ∧ items'.length = items.length := by
  cases h with
  | leaf hl => exact False.elim (hl _ rfl)
  | arr hitems => exact ⟨_, rfl, hitems.length_eq⟩

theorem Rewrites.obj_of_obj {fs' : List (String × Value)} (h : Rewrites ScalarOutcome p v (some (.obj fs'))) :
    ∃ fs, v = .obj fs ∧ Fields.keys fs' <+ Fields.keys fs := by
  cases h with
  | leaf hl => exact False.elim (hl _ rfl)
  | obj hfields => exact ⟨_, rfl, hfields.keys_sublist⟩

theorem Rewrites.child?_of_isSome (h : Rewrites ScalarOutcome p v (some w)) {s : Step}
    (hs : (w.child? s).isSome) : ∃ c, v.child? s = some c := by
  cases h with
  | leaf hl =>
    have hw := hl w rfl
    cases w <;> simp_all [Value.child?, Value.IsScalar]
  | null | bool | num => simp [Value.child?] at hs
  | @arr _ items items' hitems =>
    cases s with
    | key k => simp [Value.child?] at hs
    | index i =>
      have hi : i < items.length := hitems.length_eq ▸ (by simpa using hs)
      exact ⟨items[i], by simp [hi]⟩
  | @obj _ fields fields' hfields =>
    cases s with
    | index i => simp [Value.child?] at hs
    | key k =>
      have hk : k ∈ Fields.keys fields :=
        hfields.keys_sublist.subset ((Fields.isSome_get?_iff fields' k).1 (by simpa using hs))
      exact Option.isSome_iff_exists.1 ((Fields.isSome_get?_iff fields k).2 hk)

/-- Where leaves become scalars or nothing, every array and object of the
rewritten tree stands where the original has one of the same kind: the array as
long, the object's keys among the original's, in order. -/
theorem Rewrites.containers (h : Rewrites ScalarOutcome p v (some w)) (hv : v.NodupKeys) (q : KeyPath) :
    (∀ items', w.get? q = some (.arr items') →
      ∃ items, v.get? q = some (.arr items) ∧ items'.length = items.length) ∧
    (∀ fs', w.get? q = some (.obj fs') →
      ∃ fs, v.get? q = some (.obj fs) ∧ Fields.keys fs' <+ Fields.keys fs) := by
  induction q generalizing p v w with
  | nil =>
    refine ⟨fun items' hw => ?_, fun fs' hw => ?_⟩
    · cases hw
      obtain ⟨items, rfl, hlen⟩ := h.arr_of_arr
      exact ⟨items, rfl, hlen⟩
    · cases hw
      obtain ⟨fs, rfl, hkeys⟩ := h.obj_of_obj
      exact ⟨fs, rfl, hkeys⟩
  | cons s q ih =>
    have hdown : ∀ x, w.get? (s :: q) = some x → x ≠ .null →
        ∃ c c', v.child? s = some c ∧ c'.get? q = some x ∧ Rewrites ScalarOutcome (p ++ [s]) c (some c') := by
      intro x hx hxnull
      obtain ⟨c', hc', hx⟩ := Option.bind_eq_some_iff.1 hx
      obtain ⟨c, hc⟩ := h.child?_of_isSome (s := s) (by simp [hc'])
      have hnull : c' ≠ .null := by
        rintro rfl
        cases q with
        | nil => exact hxnull (Option.some.inj hx).symm
        | cons t q => cases t <;> simp [get?_cons, Value.child?] at hx
      exact ⟨c, c', hc, hx, h.child? hv hc hc' hnull⟩
    refine ⟨fun items' hw => ?_, fun fs' hw => ?_⟩
    · obtain ⟨c, c', hc, hx, hrw⟩ := hdown _ hw (by simp)
      obtain ⟨items, hitems, hlen⟩ := (ih hrw (hv.child? hc)).1 items' hx
      exact ⟨items, by rw [get?_cons, hc, Option.bind_some, hitems], hlen⟩
    · obtain ⟨c, c', hc, hx, hrw⟩ := hdown _ hw (by simp)
      obtain ⟨fs, hfs, hkeys⟩ := (ih hrw (hv.child? hc)).2 fs' hx
      exact ⟨fs, by rw [get?_cons, hc, Option.bind_some, hfs], hkeys⟩

end Scalars

end Value

namespace Resolver

variable {m : Type → Type} [Monad m] [LawfulMonad m] [Host m]

/-- Every array and object of the tree a first pass leaves, when it succeeds,
stood at the same place in the input. -/
theorem firstPass_containers (r : Resolver) (tree : Value) (ht : tree.NodupKeys) :
    SatisfiesM (fun res : (Value × Option ConfigError) × List Deferred => res.1.2 = none →
      (∀ q items', res.1.1.get? q = some (.arr items') →
        ∃ items, tree.get? q = some (.arr items) ∧ items'.length = items.length) ∧
      (∀ q fs', res.1.1.get? q = some (.obj fs') →
        ∃ fs, tree.get? q = some (.obj fs) ∧ Fields.keys fs' <+ Fields.keys fs))
      ((Value.walk (r.visitLeaf : KeyPath → String → StateT (List Deferred) m _) tree).run []) := by
  have hvisit : ∀ path leaf s, SatisfiesM (fun res : Except ConfigError Visit × List Deferred =>
      ∀ a, res.1 = .ok a → Value.ScalarOutcome path leaf (a.outcome (.str leaf)) ∧
        res.2 = s ++ noteOf path leaf) ((r.visitLeaf path leaf : StateT (List Deferred) m _).run s) :=
    visitLeaf_scalar r
  refine (Value.walk_rewrites hvisit tree ht []).imp fun h hf => ?_
  obtain ⟨o, hrw, hw, -⟩ := h hf
  cases o with
  | none =>
    rw [hw]
    exact ⟨fun q items' hq => by cases q <;> simp [Value.get?_cons, Value.child?] at hq,
      fun q fs' hq => by cases q <;> simp [Value.get?_cons, Value.child?] at hq⟩
  | some t =>
    rw [hw]
    exact ⟨fun q => (hrw.containers ht q).1, fun q => (hrw.containers ht q).2⟩

/-- What a directive can resolve to. On any host, a resolution that succeeds
gives nothing or a scalar (a text, a boolean, an integer or a finite double),
never `null`, an array or an object, so coercing a resolved payload never meets
`null`; a visit of the first pass replaces a leaf by a scalar only; and every
array and object of the tree a first pass leaves stood at the same place in
the input, the array as long and the object's keys among the input's, in
order. On a model machine, a resolution gives nothing exactly when a `BOOL` or
integer directive's payload resolves to the empty text, and every level above
it is a coercion, a variable or a file whose text resolves to nothing. -/
theorem resolveText_outcomes (r : Resolver) :
    (∀ path text depth, SatisfiesM (fun res => ∀ o, res = .ok o →
        (∀ v ∈ o, v.IsScalar) ∧ Coerce.toBool o ≠ .null ∧ ∀ radix, Coerce.toInt o radix ≠ .null)
      (r.resolveText (m := m) path text depth)) ∧
    (∀ path leaf s, SatisfiesM (fun res : Except ConfigError Visit × List Deferred =>
        ∀ v, res.1 = .ok (.replace v) → v.IsScalar)
      ((r.visitLeaf path leaf : StateT (List Deferred) m _).run s)) ∧
    (∀ (w : Machine) path text depth,
      ((r.resolveText (m := StateM Machine) path text depth).run w).1 = .ok none ↔
        AbsentVia r path w text depth) ∧
    (∀ tree : Value, tree.NodupKeys →
      SatisfiesM (fun res : (Value × Option ConfigError) × List Deferred => res.1.2 = none →
        (∀ q items', res.1.1.get? q = some (.arr items') →
          ∃ items, tree.get? q = some (.arr items) ∧ items'.length = items.length) ∧
        (∀ q fs', res.1.1.get? q = some (.obj fs') →
          ∃ fs, tree.get? q = some (.obj fs) ∧ Fields.keys fs' <+ Fields.keys fs))
        ((Value.walk (r.visitLeaf : KeyPath → String → StateT (List Deferred) m _) tree).run [])) := by
  refine ⟨fun path text depth => ?_, fun path leaf s => ?_, fun w path text depth => ?_,
    fun tree ht => firstPass_containers r tree ht⟩
  · refine (resolveText_givesScalar r path text depth).imp fun h o ho => ?_
    have hnull : o ≠ some .null := fun hn => (h o ho .null (by simp [hn])).ne_null rfl
    exact ⟨h o ho, fun hb => hnull ((Coerce.toBool_eq_null_iff o).1 hb),
      fun radix hi => hnull ((Coerce.toInt_eq_null_iff o radix).1 hi)⟩
  · exact (visitLeaf_scalar r path leaf s).imp fun h v hv => (h _ hv).1 v rfl
  · exact ⟨absentVia_of_run (k := r.maxDepth + 1) (by omega), run_of_absentVia⟩

/-- Resolutions on a model machine: an integer read from an unset variable, a
boolean of it, which is absent, and the first pass over an object with an
absent boolean and an array. -/
theorem resolveText_outcomes_unset :
    let r : Resolver := ⟨.bootstrapping, defaultMaxDepth⟩
    let w : Machine := ⟨.fixed [], .exact [] none [], .pattern [], .pattern []⟩
    let tree : Value := .obj [("x", .str "BOOL:ENV:X"), ("ys", .arr [.str "RAW:1", .num (.int 2)])]
    SatisfiesM (fun res => ∀ o, res = .ok o →
        (∀ v ∈ o, v.IsScalar) ∧ Coerce.toBool o ≠ .null ∧ ∀ radix, Coerce.toInt o radix ≠ .null)
      (r.resolveText (m := StateM Machine) [.key "x"] "INT:ENV:X" 0) ∧
    (((r.resolveText (m := StateM Machine) [.key "x"] "BOOL:ENV:X" 0).run w).1 = .ok none ↔
      AbsentVia r [.key "x"] w "BOOL:ENV:X" 0) ∧
    tree.NodupKeys ∧
    SatisfiesM (fun res : (Value × Option ConfigError) × List Deferred => res.1.2 = none →
        (∀ q items', res.1.1.get? q = some (.arr items') →
          ∃ items, tree.get? q = some (.arr items) ∧ items'.length = items.length) ∧
        (∀ q fs', res.1.1.get? q = some (.obj fs') →
          ∃ fs, tree.get? q = some (.obj fs) ∧ Fields.keys fs' <+ Fields.keys fs))
      ((Value.walk (r.visitLeaf : KeyPath → String → StateT (List Deferred) (StateM Machine) _) tree).run []) := by
  intro r w tree
  have ht : tree.NodupKeys := by simp [tree]
  obtain ⟨hres, -, habsent, hpass⟩ := resolveText_outcomes (m := StateM Machine) r
  exact ⟨hres _ _ _, habsent w _ _ _, ht, hpass tree ht⟩

end Resolver

end LayeredConfig
