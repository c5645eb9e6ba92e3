import LayeredConfig.Proofs.Process
import LayeredConfig.Proofs.Merge

/-! The settings section, resolved twice. Starting a session resolves the
`configProcessor` section alone, under its own key, with obfuscated values
refused and the default nesting limit; processing resolves the whole merged
tree, whose first field is that section, with the obfuscator and the limit the
section configures. When the configured limit is no smaller than the default
and every reference in the section reads inside it, the two agree. Processing
walks the section first, on a machine that holds what the bootstrap left, so
every leaf there resolves as it did (`walkNode_replay`). The section's
references are then copied first, in the same order, and read the section
only; the copies made for the other fields write outside it. A run of
processing that succeeds so holds the very section the settings were read
from. With a smaller configured limit, a setting nested deeper than that limit
fails the second time. -/

namespace LayeredConfig

open Machine Resolver

namespace Fields

theorem foldl_erase_cons {α : Type} {k : String} {removed : List String} (h : k ∉ removed) (x : α)
    (fs : List (String × α)) :
    removed.foldl erase ((k, x) :: fs) = (k, x) :: removed.foldl erase fs := by
  induction removed generalizing fs with
  | nil => rfl
  | cons r rest ih =>
    simp only [List.mem_cons, not_or] at h
    simp only [List.foldl_cons, erase, if_neg h.1]
    exact ih h.2 _

end Fields

namespace Value

/-! ### The first field of an object -/

theorem field?_eq_get? (v : Value) (k : String) : v.field? k = v.get? [.key k] := by
  cases v <;> simp [field?, fields?, get?, child?]

/-- A reference whose first token is the key of an object's first field reads
inside that field only. -/
theorem lookup_obj_cons_of_head {k : String} {x : Value} (ra rb : List (String × Value)) {src : String}
    (h : (Reference.tokens src).head? = some k) :
    (obj ((k, x) :: ra)).lookup src = (obj ((k, x) :: rb)).lookup src := by
  obtain ⟨toks, htoks⟩ : ∃ toks, Reference.tokens src = k :: toks := by
    cases ht : Reference.tokens src with
    | nil => simp [ht] at h
    | cons t toks =>
      simp only [ht, List.head?_cons, Option.some.injEq] at h
      exact ⟨toks, h ▸ rfl⟩
  simp only [lookup, htoks, List.foldlM_cons, Reference.follow, Fields.get?_cons, if_true]

/-- Assigning at a path that goes on inside an object's first field rewrites
that field only. -/
theorem assign_obj_cons_inside {k : String} {x : Value} (ra : List (String × Value)) {q : KeyPath}
    (hq : q ≠ []) (o : Option Value) :
    ((obj ((k, x) :: ra)).assign (.key k :: q) o).2 = obj ((k, (x.assign q o).2) :: ra) := by
  obtain ⟨s, q, rfl⟩ := List.exists_cons_of_ne_nil hq
  cases hx : x.assign? (s :: q) o <;> simp [assign, assign?, Fields.modify?, hx]

/-- References read inside an object's first field and copied to targets inside
it give the same first field, whatever the other fields are. -/
theorem fillDeferred_obj_cons {k : String} {noted : List Deferred}
    (h : ∀ d ∈ noted, (∃ q, q ≠ [] ∧ d.target = .key k :: q) ∧
      (Reference.tokens d.source).head? = some k)
    (x : Value) (ra rb : List (String × Value)) :
    ∃ x' ra' rb', (obj ((k, x) :: ra)).fillDeferred noted = obj ((k, x') :: ra') ∧
      (obj ((k, x) :: rb)).fillDeferred noted = obj ((k, x') :: rb') := by
  induction noted generalizing x ra rb with
  | nil => exact ⟨x, ra, rb, rfl, rfl⟩
  | cons d rest ih =>
    obtain ⟨⟨q, hq, htarget⟩, hsource⟩ := h d List.mem_cons_self
    simp only [fillDeferred_eq_fillWith, fillWith_cons] at ⊢
    rw [htarget, lookup_obj_cons_of_head ra rb hsource, assign_obj_cons_inside ra hq,
      assign_obj_cons_inside rb hq, ← fillDeferred_eq_fillWith, ← fillDeferred_eq_fillWith]
    exact ih (fun e he => h e (List.mem_cons_of_mem d he)) _ ra rb

/-- Copying first the references inside an object's first field, then ones
whose targets lie outside it, leaves that field as the first copies make it
in the object holding that field alone. -/
theorem field?_fillDeferred_obj_cons {k : String} {inside outside : List Deferred}
    (hin : ∀ d ∈ inside, (∃ q, q ≠ [] ∧ d.target = .key k :: q) ∧
      (Reference.tokens d.source).head? = some k)
    (hout : ∀ d ∈ outside, KeyPath.Apart d.target [.key k]) (x : Value)
    (ra : List (String × Value)) :
    ((obj ((k, x) :: ra)).fillDeferred (inside ++ outside)).field? k =
      ((obj [(k, x)]).fillDeferred inside).field? k := by
  obtain ⟨x', ra', rb', hfull, halone⟩ := fillDeferred_obj_cons hin x ra []
  have hsplit : (obj ((k, x) :: ra)).fillDeferred (inside ++ outside) =
      ((obj ((k, x) :: ra)).fillDeferred inside).fillDeferred outside := List.foldl_append
  rw [hsplit, hfull, halone, field?_eq_get?, fillDeferred_eq_fillWith, get?_fillWith_of_apart _ hout]
  simp [get?, child?, field?, fields?]

/-- The merged tree holds the settings section as its first field. -/
theorem mergeLayers_eq_cons {layers : List (Option Value)} {fields : List (String × Value)}
    (hsect : (mergeLayers layers).field? settingsKey = some (.obj fields)) :
    ∃ rest, mergeLayers layers = .obj ((settingsKey, .obj fields) :: rest) := by
  obtain ⟨fs, hfs, hhead⟩ := mergeLayers_obj layers
  rw [hfs] at hsect ⊢
  cases fs with
  | nil => simp at hhead
  | cons kv rest =>
    obtain ⟨k, v⟩ := kv
    simp only [Fields.keys_cons, List.head?_cons, Option.some.injEq] at hhead
    subst hhead
    simp only [field?, fields?, Option.bind_some, Fields.get?_cons, if_true, Option.some.injEq] at hsect
    exact ⟨rest, by rw [hsect]⟩

end Value

namespace Resolver

/-- A walk of a node that gets to its end notes the references of its leaves,
in order. -/
theorem walkNode_notes (r : Resolver) (p : KeyPath) (v : Value) (hv : v.NodupKeys) {s s' : List Deferred}
    {w w' : Machine} {v' : Value} {a : Visit}
    (hrun : Value.runAt (Value.walkNode r.visitLeaf p v) s w = (((v', .ok a), s'), w')) :
    s' = s ++ Value.notesOf noteOf (Value.leaves p v) :=
  Value.walkNode_notes_of_visit (fun p l s w _ _ => visitLeaf_notes r p l s w) p v hv hrun

/-- A walk of fields that gets to their end removes only keys among them and
notes the references of their leaves, in order. -/
theorem walkFields_notes (r : Resolver) (p : KeyPath) (fields : List (String × Value))
    (hfields : Value.FieldsNodupKeys fields) (hkeys : (Fields.keys fields).Nodup) {s s' : List Deferred}
    {w w' : Machine} {fields' : List (String × Value)} {removed : List String}
    (hrun : Value.runAt (Value.walkFields r.visitLeaf p fields) s w =
      (((fields', removed, none), s'), w')) :
    (∀ k ∈ removed, k ∈ Fields.keys fields) ∧
      s' = s ++ Value.notesOf noteOf (Value.fieldLeaves p fields) :=
  Value.walkFields_notes_of_visit (fun p l s w _ _ => visitLeaf_notes r p l s w) p fields hfields hkeys hrun

end Resolver

namespace Session

abbrev bootstrapResolver : Resolver := ⟨.bootstrapping, defaultMaxDepth⟩

/-- A run of the bootstrap is the resolution of the section under its own key:
its first pass, then the copying of the references it noted, then the reading
of the settings. -/
theorem bootstrapSettings_run {data : Value} {fields : List (String × Value)}
    (hsect : data.field? Value.settingsKey = some (.obj fields)) {w W : Machine} {walked : Value}
    {failure : Option ConfigError} {noted : List Deferred}
    (hrun : Value.runAt (Value.walk bootstrapResolver.visitLeaf
      (.obj [(Value.settingsKey, .obj fields)])) [] w = (((walked, failure), noted), W)) :
    (bootstrapSettings data : StateM Machine _).run w =
      (match failure with
        | some e => .error e
        | none => (Settings.read (((walked.fillDeferred noted).field? Value.settingsKey).getD
            .null)).mapError .invalidSettings, W) := by
  rw [bootstrapSettings]
  simp only [hsect]
  rw [StateT.run_bind, resolveTree_run bootstrapResolver hrun]
  cases failure with
  | some e => rfl
  | none =>
    simp only [bind]
    cases Settings.read (((walked.fillDeferred noted).field? Value.settingsKey).getD .null) <;> rfl

theorem start_run (layers : List (Option Value)) (w : Machine) :
    (start layers : StateM Machine _).run w =
      (match ((bootstrapSettings (Value.mergeLayers layers) : StateM Machine _).run w).1 with
        | .ok s => .ok ⟨Value.mergeLayers layers, s, Obfuscator.ofConfig s.obfuscator⟩
        | .error e => .error e,
        ((bootstrapSettings (Value.mergeLayers layers) : StateM Machine _).run w).2) := by
  rw [start, StateT.run_bind]
  simp only [bind]
  cases ((bootstrapSettings (Value.mergeLayers layers) : StateM Machine _).run w).1 <;> rfl

/-- A session that starts holds the merged tree. The bootstrap's first pass
walks the whole section without a failure and ends on the machine the start
ends on, and the settings are read from the section it leaves, once its
references are copied. -/
theorem start_ok {layers : List (Option Value)} {fields : List (String × Value)}
    (hsect : (Value.mergeLayers layers).field? Value.settingsKey = some (.obj fields)) {w : Machine}
    {sess : Session} (hstart : ((start layers : StateM Machine _).run w).1 = .ok sess) :
    sess.data = Value.mergeLayers layers ∧ ∃ sect noted,
      Value.runAt (Value.walkNode bootstrapResolver.visitLeaf [.key Value.settingsKey] (.obj fields))
        [] w = (((sect, .ok .keep), noted), ((start layers : StateM Machine _).run w).2) ∧
      Settings.read ((((Value.obj [(Value.settingsKey, sect)]).fillDeferred noted).field?
        Value.settingsKey).getD .null) = .ok sess.settings := by
  rcases hx : Value.runAt (Value.walkNode bootstrapResolver.visitLeaf [.key Value.settingsKey]
    (.obj fields)) [] w with ⟨⟨⟨sect, answer⟩, noted⟩, W⟩
  rw [start_run] at hstart ⊢
  cases answer with
  | error e =>
    have hwalk := Value.walk_obj_cons_error _ [] hx
    rw [bootstrapSettings_run hsect hwalk] at hstart
    cases hstart
  | ok a =>
    obtain rfl := Value.walkNode_obj_keep _ hx
    have hrest : Value.runAt (Value.walkFields bootstrapResolver.visitLeaf [] []) noted W =
        ((([], [], none), noted), W) := rfl
    have hwalk := Value.walk_obj_cons _ hx hrest
    simp only [List.foldl_nil] at hwalk
    rw [bootstrapSettings_run hsect hwalk] at hstart ⊢
    cases hread : Settings.read ((((Value.obj [(Value.settingsKey, sect)]).fillDeferred noted).field?
        Value.settingsKey).getD .null) with
    | error e =>
      simp only [hread, Except.mapError] at hstart
      cases hstart
    | ok s =>
      simp only [hread, Except.mapError, Except.ok.injEq] at hstart
      subst hstart
      exact ⟨rfl, sect, noted, rfl, hread⟩

/-- The notes of the section's first pass are copied inside it and read inside
it, when every reference of the section names a node inside it. -/
theorem notes_inside_section {fields : List (String × Value)} (hv : (Value.obj fields).NodupKeys)
    (hrefs : ∀ q leaf d, (Value.obj fields).get? q = some (.str leaf) →
      Directive.parse leaf = some d → d.operator = .config →
      (Reference.tokens d.payload).head? = some Value.settingsKey) :
    ∀ d ∈ Value.notesOf noteOf (Value.leaves [.key Value.settingsKey] (.obj fields)),
      (∃ q, q ≠ [] ∧ d.target = .key Value.settingsKey :: q) ∧
        (Reference.tokens d.source).head? = some Value.settingsKey := by
  intro d hd
  obtain ⟨leaf, hmem, hparse⟩ := mem_notesOf_noteOf hd
  obtain ⟨r, htarget, hget⟩ := Value.get?_of_mem_leaves _ _ hv hmem
  refine ⟨⟨r, ?_, htarget⟩, hrefs r leaf _ hget hparse rfl⟩
  rintro rfl
  simp [Value.get?] at hget

/-- The notes of the fields after the section are copied outside it. -/
theorem notes_outside_section {rest : List (String × Value)} (hrest : Value.FieldsNodupKeys rest)
    (hk : Value.settingsKey ∉ Fields.keys rest) :
    ∀ d ∈ Value.notesOf noteOf (Value.fieldLeaves [] rest),
      KeyPath.Apart d.target [.key Value.settingsKey] := by
  intro d hd
  obtain ⟨leaf, hmem, -⟩ := mem_notesOf_noteOf hd
  obtain ⟨k, c, r, hc, htarget, -⟩ := Value.get?_of_mem_fieldLeaves [] rest hrest hmem
  rw [htarget, List.nil_append]
  have hne : k ≠ Value.settingsKey := fun h => hk (h ▸ List.mem_map_of_mem hc)
  exact KeyPath.apart_cons_cons.2 (Or.inl fun h => hne (Step.key.inj h))

/-- What a run of processing that succeeds leaves in the settings section, when
the merged tree holds the section first and each of its keys once, and the
references noted in the section are copied inside it and read inside it: the
section as processing walked it, with those references copied as in the
section alone. -/
theorem process_section {sess : Session} {fields rest : List (String × Value)}
    (hdata : sess.data = .obj ((Value.settingsKey, .obj fields) :: rest))
    (hkeys : (Fields.keys ((Value.settingsKey, .obj fields) :: rest)).Nodup)
    (hrest : Value.FieldsNodupKeys rest)
    {noted : List Deferred}
    (hinside : ∀ d ∈ noted, (∃ q, q ≠ [] ∧ d.target = .key Value.settingsKey :: q) ∧
      (Reference.tokens d.source).head? = some Value.settingsKey)
    {w u : Machine} {sect : Value}
    (hfirst : Value.runAt (Value.walkNode sess.resolver.visitLeaf [.key Value.settingsKey]
      (.obj fields)) [] w = (((sect, .ok .keep), noted), u))
    {tree : Value} (hproc : ((sess.process : StateM Machine _).run w).1 = .ok tree) :
    tree.field? Value.settingsKey = ((Value.obj [(Value.settingsKey, sect)]).fillDeferred noted).field?
      Value.settingsKey := by
  have hk : Value.settingsKey ∉ Fields.keys rest := (List.nodup_cons.1 hkeys).1
  rcases hy : Value.runAt (Value.walkFields sess.resolver.visitLeaf [] rest) noted u with
    ⟨⟨⟨rest', removed, failure⟩, notedAll⟩, wEnd⟩
  have hwalk := Value.walk_obj_cons _ hfirst hy
  rw [← hdata] at hwalk
  rw [process_run sess hwalk] at hproc
  cases failure with
  | some e => cases hproc
  | none =>
    simp only [Except.ok.injEq] at hproc
    subst hproc
    obtain ⟨hremoved, hnotedAll⟩ :=
      walkFields_notes sess.resolver [] rest hrest (List.nodup_cons.1 hkeys).2 hy
    have hkr : Value.settingsKey ∉ removed := fun h => hk (hremoved _ h)
    rw [Fields.foldl_erase_cons hkr, hnotedAll,
      Value.field?_fillDeferred_obj_cons hinside (notes_outside_section hrest hk)]

/-- The bootstrap and processing agree on the settings section. Take a session
started from layers whose objects have each key once, whose settings section is
an object in which every reference names a node inside the section, and whose
configured nesting limit is no smaller than the default; process it on a
machine with the environment and every file of the one the start ended on.
The merged tree holds the section first. Processing walks the section exactly
as the bootstrap did, with the same resolved section and notes, and no leaf
fails there; and when processing succeeds, its section reads back as the
session's settings. -/
theorem process_agrees_with_bootstrap (layers : List (Option Value))
    (hlayers : ∀ t, some t ∈ layers → t.NodupKeys) {fields : List (String × Value)}
    (hsect : (Value.mergeLayers layers).field? Value.settingsKey = some (.obj fields))
    (hrefs : ∀ q leaf d, (Value.obj fields).get? q = some (.str leaf) →
      Directive.parse leaf = some d → d.operator = .config →
      (Reference.tokens d.payload).head? = some Value.settingsKey)
    {w₀ w : Machine} {sess : Session}
    (hstart : ((start layers : StateM Machine _).run w₀).1 = .ok sess)
    (hcov : ((start layers : StateM Machine _).run w₀).2.Covers w)
    (hdepth : defaultMaxDepth ≤ sess.settings.maxDirectiveDepth) :
    (∃ rest, sess.data = .obj ((Value.settingsKey, .obj fields) :: rest)) ∧
    (Value.runAt (Value.walkNode sess.resolver.visitLeaf [.key Value.settingsKey] (.obj fields))
        [] w).1 =
      (Value.runAt (Value.walkNode bootstrapResolver.visitLeaf [.key Value.settingsKey] (.obj fields))
        [] w₀).1 ∧
    (Value.runAt (Value.walkNode bootstrapResolver.visitLeaf [.key Value.settingsKey] (.obj fields))
      [] w₀).1.1.2 = .ok .keep ∧
    ∀ tree, ((sess.process : StateM Machine _).run w).1 = .ok tree →
      Settings.read ((tree.field? Value.settingsKey).getD .null) = .ok sess.settings := by
  obtain ⟨hdata, sect, noted, hboot, hread⟩ := start_ok hsect hstart
  obtain ⟨rest, hfs⟩ := Value.mergeLayers_eq_cons hsect
  have hnodup := Value.nodupKeys_mergeLayers hlayers
  rw [hfs] at hnodup
  obtain ⟨hkeys, hsectNodup, hrestNodup⟩ := hnodup
  have hinside : ∀ d ∈ noted, (∃ q, q ≠ [] ∧ d.target = .key Value.settingsKey :: q) ∧
      (Reference.tokens d.source).head? = some Value.settingsKey := by
    rw [walkNode_notes _ _ _ hsectNodup hboot, List.nil_append]
    exact notes_inside_section hsectNodup hrefs
  -- processing walks the section as the bootstrap did, on a machine covering its end
  have hext : bootstrapResolver.Extends sess.resolver := extends_of_bootstrapping hdepth
  obtain ⟨-, hsucc, -⟩ := Value.walkNode_replay Steps.refl Steps.trans (visitLeaf_steps _)
    (visitLeaf_replaysSuccesses hext _) [.key Value.settingsKey] (.obj fields) hboot
  obtain ⟨u, hsect', -⟩ := hsucc .keep rfl (Steps.refl _) w hcov
  refine ⟨⟨rest, hdata.trans hfs⟩, by rw [hsect', hboot], by rw [hboot], fun tree hproc => ?_⟩
  rw [process_section (hdata.trans hfs) hkeys hrestNodup hinside hsect' hproc]
  exact hread

/-- A section that raises the nesting limit through a directive: started on an
empty machine and processed where the start ended, processing agrees with the
bootstrap. -/
theorem process_agrees_with_bootstrap_int :
    (∃ rest, (⟨Value.mergeLayers [some (.obj [(Value.settingsKey,
        .obj [("maxDirectiveDepth", .str "INT:40")])])], ⟨.standard, 40⟩,
        Obfuscator.ofConfig .standard⟩ : Session).data =
      .obj ((Value.settingsKey, .obj [("maxDirectiveDepth", .str "INT:40")]) :: rest)) ∧
    (Value.runAt (Value.walkNode (⟨Value.mergeLayers [some (.obj [(Value.settingsKey,
        .obj [("maxDirectiveDepth", .str "INT:40")])])], ⟨.standard, 40⟩,
        Obfuscator.ofConfig .standard⟩ : Session).resolver.visitLeaf [.key Value.settingsKey]
        (.obj [("maxDirectiveDepth", .str "INT:40")])) []
        ((start [some (.obj [(Value.settingsKey, .obj [("maxDirectiveDepth", .str "INT:40")])])] :
          StateM Machine _).run ⟨.fixed [], .exact [] none [], .pattern [42], .pattern []⟩).2).1 =
      (Value.runAt (Value.walkNode bootstrapResolver.visitLeaf [.key Value.settingsKey]
        (.obj [("maxDirectiveDepth", .str "INT:40")])) []
        (⟨.fixed [], .exact [] none [], .pattern [42], .pattern []⟩ : Machine)).1 ∧
    (Value.runAt (Value.walkNode bootstrapResolver.visitLeaf [.key Value.settingsKey]
        (.obj [("maxDirectiveDepth", .str "INT:40")])) []
        (⟨.fixed [], .exact [] none [], .pattern [42], .pattern []⟩ : Machine)).1.1.2 = .ok .keep ∧
    ∀ tree, (((⟨Value.mergeLayers [some (.obj [(Value.settingsKey,
        .obj [("maxDirectiveDepth", .str "INT:40")])])], ⟨.standard, 40⟩,
        Obfuscator.ofConfig .standard⟩ : Session).process : StateM Machine _).run
        ((start [some (.obj [(Value.settingsKey, .obj [("maxDirectiveDepth", .str "INT:40")])])] :
          StateM Machine _).run ⟨.fixed [], .exact [] none [], .pattern [42], .pattern []⟩).2).1 = .ok tree →
      Settings.read ((tree.field? Value.settingsKey).getD .null) = .ok (⟨.standard, 40⟩ : Settings) := by
  have hboot : ((bootstrapSettings (Value.mergeLayers [some (.obj [(Value.settingsKey,
      .obj [("maxDirectiveDepth", .str "INT:40")])])]) : StateM Machine _).run
      ⟨.fixed [], .exact [] none [], .pattern [42], .pattern []⟩).1.toOption = some ⟨.standard, 40⟩ := by
    decide +kernel
  have hstart : ((start [some (.obj [(Value.settingsKey, .obj [("maxDirectiveDepth", .str "INT:40")])])] :
      StateM Machine _).run ⟨.fixed [], .exact [] none [], .pattern [42], .pattern []⟩).1 =
      .ok ⟨Value.mergeLayers [some (.obj [(Value.settingsKey,
        .obj [("maxDirectiveDepth", .str "INT:40")])])], ⟨.standard, 40⟩, Obfuscator.ofConfig .standard⟩ := by
    rw [start_run]
    cases hres : ((bootstrapSettings (Value.mergeLayers [some (.obj [(Value.settingsKey,
        .obj [("maxDirectiveDepth", .str "INT:40")])])]) : StateM Machine _).run
        ⟨.fixed [], .exact [] none [], .pattern [42], .pattern []⟩).1 with
    | error e => simp [hres, Except.toOption] at hboot
    | ok s =>
      simp only [hres, Except.toOption, Option.some.injEq] at hboot
      subst hboot
      rfl
  have hsect : (Value.mergeLayers [some (.obj [(Value.settingsKey,
      .obj [("maxDirectiveDepth", .str "INT:40")])])]).field? Value.settingsKey =
      some (.obj [("maxDirectiveDepth", .str "INT:40")]) := by
    simp [Value.mergeLayers, Value.layerBase, Value.mergeLayer, Value.merge, Value.mergeFields,
      Fields.set, Value.field?, Value.fields?]
  have hdepth : defaultMaxDepth ≤ 40 := by decide
  refine process_agrees_with_bootstrap _ ?_ hsect ?_ hstart (Covers.refl _) hdepth
  · intro t ht
    simp only [List.mem_singleton, Option.some.injEq] at ht
    subst ht
    simp
  · intro q leaf d hq hparse hop
    have hmem := Value.mem_leaves_of_get? hq []
    simp only [List.nil_append, Value.leaves, Value.fieldLeaves, List.append_nil, List.mem_singleton,
      Prod.mk.injEq] at hmem
    obtain ⟨-, rfl⟩ := hmem
    have hint : Directive.parse "INT:40" = some ⟨.int 10, "40"⟩ := by decide +kernel
    rw [hint, Option.some.injEq] at hparse
    subst hparse
    cases hop

/-- Below the default nesting limit the agreement fails: a section that sets the
limit to `0` through a nested directive starts, since the bootstrap nests up to
the default, but processing then refuses that very setting, one level deep,
at its path inside the section. -/
theorem process_fails_on_setting_below_default_depth :
    (Value.mergeLayers [some (.obj [(Value.settingsKey,
        .obj [("maxDirectiveDepth", .str "INT:RAW:0")])])]).field? Value.settingsKey =
      some (.obj [("maxDirectiveDepth", .str "INT:RAW:0")]) ∧
    ((start [some (.obj [(Value.settingsKey, .obj [("maxDirectiveDepth", .str "INT:RAW:0")])])] :
      StateM Machine _).run ⟨.fixed [], .exact [] none [], .pattern [42], .pattern []⟩).1.toOption.map
      (fun s => (s.settings, (((s.process : StateM Machine _).run
        ((start [some (.obj [(Value.settingsKey, .obj [("maxDirectiveDepth", .str "INT:RAW:0")])])] :
          StateM Machine _).run ⟨.fixed [], .exact [] none [], .pattern [42], .pattern []⟩).2).1.mapError
        ConfigError.message).map fun _ => ())) =
      some (⟨.standard, 0⟩,
        .error "Directive nesting exceeds 0 levels at: [\"configProcessor\",\"maxDirectiveDepth\"]") :=
  ⟨by simp [Value.mergeLayers, Value.layerBase, Value.mergeLayer, Value.merge, Value.mergeFields,
      Fields.set, Value.field?, Value.fields?], by decide +kernel⟩

end Session

end LayeredConfig
