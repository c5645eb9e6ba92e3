import LayeredConfig.Layers
import LayeredConfig.Proofs.Replay
import LayeredConfig.Proofs.Merge

/-! Layer discovery on a model machine. Discovery looks in a directory and in
each directory above it, nearest first; `Path.ancestors` lists them, and the
list ends because every parent is a shorter text than its path. In each
directory the layer file is `.confproc.toml`, or else `.confproc.json`, when it
is a regular file. The layers read so are kept up to and including the first
whose `configProcessor.root` is the boolean `true`, and the first layer on the
way that cannot be read is the answer instead. The user's layer follows unless
the variable that turns it off holds a true value, it is not a regular file, or
a layer found has its path. Discovery only reads the machine.

Layers are merged in the opposite order, so a nearer layer's node wins over the
nodes of the layers behind it wherever the layers between leave the path to it. -/

namespace LayeredConfig

namespace Path

/-- Inside `segments`: positions pushed so far fall, and all stand before the
scan; the segments come out in rising positions, none past the text. -/
theorem segments_go_positions (cs : List Char) (pos : Nat) (cur : List Char)
    (acc : List (String × Nat)) (hacc : acc.Pairwise (fun a b => b.2 < a.2))
    (hlt : ∀ x ∈ acc, x.2 < pos) :
    (segments.go cs pos cur acc).Pairwise (fun a b => a.2 < b.2) ∧
      ∀ x ∈ segments.go cs pos cur acc, x.2 ≤ pos + cs.length := by
  induction cs generalizing pos cur acc with
  | nil =>
    simp only [segments.go]
    split
    · refine ⟨List.pairwise_reverse.2 hacc, fun x hx => ?_⟩
      have := hlt x (List.mem_reverse.1 hx)
      omega
    · refine ⟨List.pairwise_reverse.2 (List.pairwise_cons.2 ⟨hlt, hacc⟩), fun x hx => ?_⟩
      rcases List.mem_cons.1 (List.mem_reverse.1 hx) with rfl | hx
      · simp
      · have := hlt x hx
        omega
  | cons c rest ih =>
    have hnext : ∀ cur' acc', acc'.Pairwise (fun a b => b.2 < a.2) → (∀ x ∈ acc', x.2 ≤ pos) →
        (segments.go rest (pos + 1) cur' acc').Pairwise (fun a b => a.2 < b.2) ∧
          ∀ x ∈ segments.go rest (pos + 1) cur' acc', x.2 ≤ pos + (c :: rest).length := by
      intro cur' acc' hpair hle
      obtain ⟨h1, h2⟩ := ih (pos + 1) cur' acc' hpair fun x hx => by have := hle x hx; omega
      exact ⟨h1, fun x hx => by have := h2 x hx; simp; omega⟩
    have hle : ∀ x ∈ acc, x.2 ≤ pos := fun x hx => (hlt x hx).le
    simp only [segments.go]
    split
    · split
      · exact hnext [] acc hacc hle
      · exact hnext [] _ (List.pairwise_cons.2 ⟨hlt, hacc⟩) fun x hx => by
          rcases List.mem_cons.1 hx with rfl | hx
          · simp
          · exact hle x hx
    · exact hnext (c :: cur) acc hacc hle

theorem segments_positions (s : String) :
    (segments s).Pairwise (fun a b => a.2 < b.2) ∧ ∀ x ∈ segments s, x.2 ≤ s.length := by
  have h := segments_go_positions s.toList 0 [] [] List.Pairwise.nil (by simp)
  simpa [segments, String.length_toList] using h

/-- The texts `""`, `"/"`, `"."` and `"./"` have no segment. -/
theorem segments_eq_nil_of_toList {s : String}
    (h : s.toList = [] ∨ s.toList = ['/'] ∨ s.toList = ['.'] ∨ s.toList = ['.', '/']) :
    segments s = [] := by
  rcases h with h | h | h | h <;> simp only [segments, h] <;> rfl

theorem isAbsolute_iff {s : String} : isAbsolute s = true ↔ ['/'] <+: s.toList := by
  simp [isAbsolute, String.startsWith_string_iff]

theorem hasLeadingCurrent_iff {s : String} :
    hasLeadingCurrent s = true ↔ isAbsolute s = false ∧ (s = "." ∨ ['.', '/'] <+: s.toList) := by
  simp [hasLeadingCurrent, String.startsWith_string_iff]

theorem length_lt_of_prefix {s : String} (hs : segments s ≠ []) {pre : List Char}
    (hpre : pre <+: s.toList) (hroot : pre = [] ∨ pre = ['/'] ∨ pre = ['.', '/']) :
    pre.length < s.length := by
  obtain ⟨rest, hrest⟩ := hpre
  rw [← String.length_toList, ← hrest, List.length_append]
  cases rest with
  | nil =>
    refine absurd (segments_eq_nil_of_toList ?_) hs
    simp only [List.append_nil] at hrest
    rcases hroot with rfl | rfl | rfl <;> simp [← hrest]
  | cons c rest => simp

/-- A parent is a shorter text than its path, so walking up ends. -/
theorem length_parent?_lt {s p : String} (h : parent? s = some p) : p.length < s.length := by
  have hpos := segments_positions s
  unfold parent? at h
  rcases hr : (segments s).reverse with _ | ⟨last, _ | ⟨prev, rest⟩⟩ <;> simp only [hr] at h
  · have hcur : hasLeadingCurrent s = true := by
      by_contra hc
      simp [hc] at h
    simp only [hcur, if_true, Option.some.injEq] at h
    subst h
    rcases (hasLeadingCurrent_iff.1 hcur).2 with rfl | ⟨t, ht⟩
    · decide
    · calc "".length = 0 := rfl
        _ < s.length := by rw [← String.length_toList, ← ht]; simp
  · have hs : segments s ≠ [] := fun h0 => by simp [h0] at hr
    by_cases habs : isAbsolute s = true
    · simp only [habs, if_true, Option.some.injEq] at h
      subst h
      exact length_lt_of_prefix hs (isAbsolute_iff.1 habs) (by simp)
    · by_cases hcur : hasLeadingCurrent s = true
      · simp only [habs, hcur, if_true, if_false, Bool.false_eq_true, Option.some.injEq] at h
        subst h
        rcases (hasLeadingCurrent_iff.1 hcur).2 with rfl | hpre
        · exact absurd (segments_eq_nil_of_toList (by simp)) hs
        · calc ".".length = 1 := rfl
            _ < ['.', '/'].length := by decide
            _ < s.length := length_lt_of_prefix hs hpre (by simp)
      · simp only [habs, hcur, Bool.false_eq_true, if_false, Option.some.injEq] at h
        subst h
        exact length_lt_of_prefix hs List.nil_prefix (by simp)
  · have hseg : segments s = rest.reverse ++ [prev, last] := by
      simpa using congrArg List.reverse hr
    have hlt : prev.2 < last.2 := by
      have := hpos.1
      rw [hseg] at this
      simp [List.pairwise_append] at this
      exact this.2.1
    have hle : last.2 ≤ s.length := hpos.2 last (by rw [hseg]; simp)
    cases h
    simp
    omega

/-- A directory and the directories above it, nearest first. -/
def ancestors (dir : String) : List String :=
  match _hp : parent? dir with
  | none => [dir]
  | some p => dir :: ancestors p
termination_by dir.length
decreasing_by exact length_parent?_lt _hp

theorem ancestors_eq (dir : String) : ancestors dir = dir :: (parent? dir).elim [] ancestors := by
  rw [ancestors]
  split <;> rename_i heq <;> simp [heq]

theorem length_ancestors_le (dir : String) : (ancestors dir).length ≤ dir.length + 1 := by
  induction dir using ancestors.induct with
  | case1 dir hp => simp [ancestors_eq dir, hp]
  | case2 dir p hp ih =>
    have hlen := length_parent?_lt hp
    rw [ancestors_eq dir, hp]
    simp only [Option.elim, List.length_cons]
    omega

end Path

namespace Machine

/-- The layer file of a directory: `.confproc.toml` if it is a regular file
there, else `.confproc.json` if that one is. -/
def layerFile? (w : Machine) (dir : String) : Option String :=
  let toml := Path.join dir ".confproc.toml"
  let json := Path.join dir ".confproc.json"
  if w.store.isFile toml then some toml else if w.store.isFile json then some json else none

/-- A layer file as the machine holds it. -/
def readLayer (w : Machine) (path : String) : Except ConfigError LoadedLayer :=
  match LayerFormat.ofPath? path with
  | none => .error (.unsupportedLayerFormat path)
  | some format =>
    match w.store.readText path with
    | .error e => .error (.layerReadError path e)
    | .ok content => (parseLayerText content format path).map fun v => ⟨path, v⟩

/-- Whether a variable holds a text that reads as `true`. -/
def holdsTrue (w : Machine) (name : String) : Bool :=
  match w.env.get? name with
  | some value => (Coerce.toBool (some (.str value))).value?.getD false
  | none => false

/-- The user's layer, `.confproc.toml` in the home directory, after the layers
found: read unless `CONFPROC_NO_USER_CONFIG` holds a true value, the file is not
a regular file, or a layer found has its path. -/
def userLayer (w : Machine) (home : String) (found : List LoadedLayer) :
    Except ConfigError (Option LoadedLayer) :=
  let path := Path.join home ".confproc.toml"
  if !w.holdsTrue "CONFPROC_NO_USER_CONFIG" && w.store.isFile path &&
      !found.any (fun l => Path.same l.path path) then
    (w.readLayer path).map some
  else .ok none

end Machine

/-- The layers read nearest first, through the first whose
`configProcessor.root` is the boolean `true`; a layer that cannot be read before
that one is the answer instead. -/
def throughRoot : List (Except ConfigError LoadedLayer) → Except ConfigError (List LoadedLayer)
  | [] => .ok []
  | .error e :: _ => .error e
  | .ok layer :: rest =>
    match (layer.value.field? "configProcessor").bind (·.field? "root") with
    | some (.bool true) => .ok [layer]
    | _ => (throughRoot rest).map (layer :: ·)

theorem isRootLayer_eq (v : Value) : isRootLayer v =
    match (v.field? "configProcessor").bind (·.field? "root") with
    | some (.bool true) => true
    | _ => false := by
  simp only [isRootLayer, Value.settingsKey]
  rcases (v.field? "configProcessor").bind (·.field? "root") with
    _ | (_ | (_ | _) | _ | _ | _ | _) <;> rfl

theorem throughRoot_ok_cons (layer : LoadedLayer) (rest : List (Except ConfigError LoadedLayer)) :
    throughRoot (.ok layer :: rest) =
      if isRootLayer layer.value then .ok [layer] else (throughRoot rest).map (layer :: ·) := by
  rw [throughRoot, isRootLayer_eq]
  split <;> rfl

/-! Each step of discovery on a machine: it reads and leaves the machine as it was. -/

theorem run_bind_of_run {σ α β : Type} {x : StateM σ α} {w : σ} {a : α} (h : x.run w = (a, w))
    (f : α → StateM σ β) : (x >>= f).run w = (f a).run w := by
  rw [Resolver.run_bind_of_snd x f w (by rw [h]), h]

theorem isFile_run (path : String) (w : Machine) :
    (Host.isFile path : StateM Machine Bool).run w = (w.store.isFile path, w) := rfl

theorem findLayerFile_run (dir : String) (w : Machine) :
    (findLayerFile dir : StateM Machine _).run w = (w.layerFile? dir, w) := by
  simp only [findLayerFile, layerFileNames, List.findSomeM?, Host.isFile, Machine.layerFile?]
  by_cases htoml : w.store.isFile (Path.join dir ".confproc.toml") <;>
    by_cases hjson : w.store.isFile (Path.join dir ".confproc.json") <;>
    simp [htoml, hjson] <;> rfl

theorem parseLayerFile_run (path : String) (w : Machine) :
    (parseLayerFile path : StateM Machine _).run w = (w.readLayer path, w) := by
  simp only [parseLayerFile, Machine.readLayer, Host.readText]
  cases LayerFormat.ofPath? path with
  | none => rfl
  | some format => cases hread : w.store.readText path <;> simp [hread] <;> rfl

theorem envTruthy_run (name : String) (w : Machine) :
    (envTruthy name : StateM Machine _).run w = (w.holdsTrue name, w) := by
  simp only [envTruthy, Machine.holdsTrue, Host.envVar]
  cases hvar : w.env.get? name <;> simp [hvar] <;> rfl

theorem loadUserLayer_run (home : String) (found : List LoadedLayer) (w : Machine) :
    (loadUserLayer home found : StateM Machine _).run w = (w.userLayer home found, w) := by
  rw [loadUserLayer, run_bind_of_run (envTruthy_run _ w)]
  simp only [Machine.userLayer, userLayerPath, userLayerFileName, userLayerDisableVar]
  by_cases hoff : w.holdsTrue "CONFPROC_NO_USER_CONFIG" = true
  · simp only [hoff, if_true, Bool.not_true, Bool.false_and, Bool.false_eq_true, if_false]
    rfl
  · simp only [hoff, Bool.false_eq_true, if_false, Bool.not_false, Bool.true_and]
    rw [run_bind_of_run (isFile_run _ w)]
    by_cases hfound : (found.any fun l => Path.same l.path (Path.join home ".confproc.toml")) = true
    · simp only [hfound, Bool.or_true, Bool.not_true, Bool.and_false, if_true, Bool.false_eq_true,
        if_false]
      rfl
    · simp only [hfound, Bool.or_false, Bool.not_eq_true']
      cases w.store.isFile (Path.join home ".confproc.toml")
      · rfl
      · simp only [Bool.true_eq_false, if_false]
        rw [run_bind_of_run (parseLayerFile_run _ w)]
        rfl

/-- The walk up from a directory, with fuel for every directory above it, reads
the layers of those directories through the first root layer. -/
theorem discoverFrom_run (w : Machine) {fuel : Nat} {dir : Option String}
    (hfuel : (dir.elim [] Path.ancestors).length ≤ fuel) (acc : List LoadedLayer) :
    (discoverFrom fuel dir acc : StateM Machine _).run w =
      ((throughRoot (((dir.elim [] Path.ancestors).filterMap w.layerFile?).map w.readLayer)).map
        (acc ++ ·), w) := by
  -- on the fuel, with the directories left to visit fitting in it
  induction fuel generalizing dir acc with
  | zero =>
    cases dir with
    | none => simp [discoverFrom, throughRoot, Except.map]; rfl
    | some dir =>
      rw [Option.elim_some, Path.ancestors_eq] at hfuel
      simp at hfuel
  | succ fuel ih =>
    cases dir with
    | none => simp [discoverFrom, throughRoot, Except.map]; rfl
    | some dir =>
      rw [Option.elim_some, Path.ancestors_eq] at hfuel ⊢
      have hnext : ((Path.parent? dir).elim [] Path.ancestors).length ≤ fuel := by
        simpa using hfuel
      rw [discoverFrom, run_bind_of_run (findLayerFile_run dir w)]
      cases hfile : w.layerFile? dir with
      | none =>
        simp only [List.filterMap_cons, hfile]
        exact ih hnext acc
      | some path =>
        rw [run_bind_of_run (parseLayerFile_run path w)]
        simp only [List.filterMap_cons, hfile, List.map_cons]
        cases hread : w.readLayer path with
        | error e => rfl
        | ok layer =>
          rw [throughRoot_ok_cons]
          dsimp only
          cases hroot : isRootLayer layer.value with
          | true => rfl
          | false =>
            simp only [Bool.false_eq_true, if_false]
            rw [ih hnext (acc ++ [layer])]
            cases throughRoot (((Path.parent? dir).elim [] Path.ancestors).filterMap w.layerFile? |>.map
              w.readLayer) <;> simp [Except.map]

/-- Discovery reads the layers of the start directory and the directories above
it through the first root layer, then the user's layer, and leaves the machine
as it was. -/
theorem discoverLayers_run (start home : String) (w : Machine) :
    (discoverLayers start home : StateM Machine _).run w =
      ((throughRoot (((Path.ancestors start).filterMap w.layerFile?).map w.readLayer)).bind
        fun found => (w.userLayer home found).map (found ++ ·.toList), w) := by
  have hfuel : ((some start).elim [] Path.ancestors).length ≤ start.length + 2 := by
    have := Path.length_ancestors_le start
    simp only [Option.elim_some]
    omega
  rw [discoverLayers, run_bind_of_run (discoverFrom_run w hfuel [])]
  simp only [Option.elim_some, List.nil_append]
  cases throughRoot (((Path.ancestors start).filterMap w.layerFile?).map w.readLayer) with
  | error e => rfl
  | ok found =>
    simp only [Except.map, Except.bind]
    rw [run_bind_of_run (loadUserLayer_run home found w)]
    cases w.userLayer home found <;> rfl

/-! Precedence of nearer layers. -/

/-- A layer leaves a path of keys to the layers behind it when merging passes
it by, or when it holds no node there and only objects above. -/
def Value.LeavesPath (v : Value) (p : List String) : Prop :=
  (∀ fs, v ≠ .obj fs) ∨ (v.get? (p.map .key) = none ∧
    ∀ q, q <+: p → q ≠ p → ∀ x, v.get? (q.map .key) = some x → ∃ fs, x = .obj fs)

theorem get?_mergeLayer_of_leavesPath {l : Value} (hnd : l.NodupKeys) {p : List String}
    (hl : l.LeavesPath p) (acc : Value) :
    (Value.mergeLayer acc (some l)).get? (p.map .key) = acc.get? (p.map .key) := by
  cases l with
  | obj fs =>
    rcases hl with hnobj | ⟨hnone, habove⟩
    · exact absurd rfl (hnobj fs)
    · exact Value.get?_merge_of_overlay_none hnd acc p hnone habove
  | _ => rfl

theorem get?_foldl_mergeLayer_of_leavesPath {p : List String} (ls : List LoadedLayer)
    (hls : ∀ l ∈ ls, l.value.NodupKeys ∧ l.value.LeavesPath p) (acc : Value) :
    ((ls.map (some ·.value)).foldl Value.mergeLayer acc).get? (p.map .key) =
      acc.get? (p.map .key) := by
  induction ls generalizing acc with
  | nil => rfl
  | cons l rest ih =>
    obtain ⟨hnd, hl⟩ := hls l List.mem_cons_self
    rw [List.map_cons, List.foldl_cons, ih (fun l hl => hls l (List.mem_cons_of_mem _ hl)),
      get?_mergeLayer_of_leavesPath hnd hl]

/-- Nearer layers take precedence: merged in merge order, the layers show at a
path the node of a layer there that is not an object, when every nearer layer
leaves the path to the ones behind it. -/
theorem get?_mergeLayers_mergeOrder {pre post : List LoadedLayer} {near : LoadedLayer}
    {fs : List (String × Value)} (hobj : near.value = .obj fs) (hnd : near.value.NodupKeys)
    {p : List String} {n : Value} (hn : near.value.get? (p.map .key) = some n)
    (hnobj : ∀ fs, n ≠ .obj fs) (hpre : ∀ l ∈ pre, l.value.NodupKeys ∧ l.value.LeavesPath p) :
    (Value.mergeLayers ((mergeOrder (pre ++ near :: post)).map (some ·.value))).get? (p.map .key) =
      some n := by
  have hnear (acc : Value) : (Value.mergeLayer acc (some near.value)).get? (p.map .key) = some n := by
    rw [hobj] at hnd hn ⊢
    exact Value.get?_merge_of_not_obj hnd acc p hn hnobj
  rw [mergeOrder, Value.mergeLayers, List.reverse_append, List.reverse_cons, List.append_assoc,
    List.singleton_append, List.map_append, List.foldl_append, List.map_cons, List.foldl_cons,
    get?_foldl_mergeLayer_of_leavesPath pre.reverse (fun l hl => hpre l (List.mem_reverse.1 hl)),
    hnear]

/-- Discovery from a start directory gives the layers of it and of the
directories above it, nearest first, one for each that has a layer file, through
the first root layer, then the user's layer, or the first layer that cannot be
read; it leaves the machine as it was. Merged in merge order, nearer layers take
precedence. -/
theorem discoverLayers_cascade (start home : String) (w : Machine) :
    (discoverLayers start home : StateM Machine _).run w =
      ((throughRoot (((Path.ancestors start).filterMap w.layerFile?).map w.readLayer)).bind
        fun found => (w.userLayer home found).map (found ++ ·.toList), w) ∧
    ∀ (pre post : List LoadedLayer) (near : LoadedLayer) (fs : List (String × Value))
      (p : List String) (n : Value), near.value = .obj fs → near.value.NodupKeys →
      near.value.get? (p.map .key) = some n → (∀ fs, n ≠ .obj fs) →
      (∀ l ∈ pre, l.value.NodupKeys ∧ l.value.LeavesPath p) →
      (Value.mergeLayers ((mergeOrder (pre ++ near :: post)).map (some ·.value))).get?
        (p.map .key) = some n :=
  ⟨discoverLayers_run start home w, fun _ _ _ _ _ _ hobj hnd hn hnobj hpre =>
    get?_mergeLayers_mergeOrder hobj hnd hn hnobj hpre⟩

/-- A nearer layer without the key, the near layer's `x = 1` and a farther
layer's `x = 2`: merged in merge order, `x` is `1`. -/
theorem discoverLayers_cascade_nearest :
    let nearer : LoadedLayer := ⟨"a/b/.confproc.toml", .obj [("y", .bool true)]⟩
    let near : LoadedLayer := ⟨"a/.confproc.toml", .obj [("x", .num (.int 1))]⟩
    let far : LoadedLayer := ⟨".confproc.toml", .obj [("x", .num (.int 2))]⟩
    near.value.NodupKeys ∧ nearer.value.NodupKeys ∧ nearer.value.LeavesPath ["x"] ∧
      (Value.mergeLayers ((mergeOrder ([nearer] ++ near :: [far])).map (some ·.value))).get?
        (["x"].map .key) = some (.num (.int 1)) := by
  intro nearer near far
  have hnd : near.value.NodupKeys := by simp [near]
  have hnd' : nearer.value.NodupKeys := by simp [nearer]
  have hleaves : nearer.value.LeavesPath ["x"] := by
    refine Or.inr ⟨rfl, fun q hq hne x hx => ?_⟩
    obtain rfl : q = [] := by
      rcases List.prefix_cons_iff.1 hq with h | ⟨t, rfl, ht⟩
      · exact h
      · simp [List.prefix_nil.1 ht] at hne
    cases hx
    exact ⟨_, rfl⟩
  refine ⟨hnd, hnd', hleaves, ?_⟩
  exact (discoverLayers_cascade "" "" default).2 [nearer] [far] near _ ["x"] _ rfl hnd rfl
    (by simp) (by simpa using ⟨hnd', hleaves⟩)

end LayeredConfig
