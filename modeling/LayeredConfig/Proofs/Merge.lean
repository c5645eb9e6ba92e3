import LayeredConfig.Tree.Merge
import LayeredConfig.Proofs.Paths

/-! The precedence law of deep merge. Follow a path of keys into the overlay:
where it holds a node that is not an object, the merge holds that node; where
it holds nothing (and every object on the way is an object of the overlay), the
base shows through; where both sides hold objects, the merged object lists the
base's keys in their order and then the overlay's new keys in theirs; and an
overlay object over no base object is taken whole. All of it follows from one
equation, `get?_merge_of_overlay`, which reads the merge at every node of the
overlay. -/

namespace LayeredConfig

open scoped List

namespace Value

theorem merge_of_not_obj (b : Value) {o : Value} (h : ∀ fs, o ≠ .obj fs) : b.merge o = o := by
  cases o with
  | obj fs => exact absurd rfl (h fs)
  | _ => rfl

theorem merge_obj_of_not_obj {b : Value} (ov : List (String × Value)) (h : ∀ fs, b ≠ .obj fs) :
    b.merge (.obj ov) = .obj ov := by
  cases b with
  | obj fs => exact absurd rfl (h fs)
  | _ => rfl

@[simp] theorem merge_obj_obj (bf ov : List (String × Value)) :
    (obj bf).merge (.obj ov) = .obj (mergeFields bf ov) := rfl

theorem mergeFields_cons (base rest : List (String × Value)) (k : String) (v : Value) :
    mergeFields base ((k, v) :: rest) =
      mergeFields (Fields.set base k ((Fields.get? base k).elim v (merge · v))) rest := by
  cases h : Fields.get? base k <;> simp [mergeFields, h]

theorem get?_mergeFields (base ov : List (String × Value)) (h : (Fields.keys ov).Nodup)
    (k : String) :
    Fields.get? (mergeFields base ov) k =
      match Fields.get? ov k with
      | some x => some ((Fields.get? base k).elim x (merge · x))
      | none => Fields.get? base k := by
  induction ov generalizing base with
  | nil => rfl
  | cons kv rest ih =>
    obtain ⟨k', v⟩ := kv
    simp only [Fields.keys_cons, List.nodup_cons] at h
    rw [mergeFields_cons, ih _ h.2]
    by_cases hk : k' = k
    · subst hk
      have hrest : Fields.get? rest k' = none := Fields.get?_eq_none_of_not_mem h.1
      simp [hrest]
    · simp [hk, Fields.get?_set_ne _ _ (Ne.symm hk)]

/-- The base's keys come first, in their order, and the overlay's new keys after them. -/
theorem keys_mergeFields (base ov : List (String × Value)) (h : (Fields.keys ov).Nodup) :
    Fields.keys (mergeFields base ov) =
      Fields.keys base ++ (Fields.keys ov).filter (· ∉ Fields.keys base) := by
  induction ov generalizing base with
  | nil => simp [mergeFields]
  | cons kv rest ih =>
    obtain ⟨k, v⟩ := kv
    simp only [Fields.keys_cons, List.nodup_cons] at h
    rw [mergeFields_cons, ih _ h.2, Fields.keys_set]
    by_cases hk : k ∈ Fields.keys base
    · simp [hk]
    · have hrest : (Fields.keys rest).filter (· ∉ Fields.keys base ++ [k]) =
          (Fields.keys rest).filter (· ∉ Fields.keys base) :=
        List.filter_congr fun x hx => by
          have : x ≠ k := fun hxk => h.1 (hxk ▸ hx)
          simp [this]
      simp only [hk, if_false, Fields.keys_cons]
      rw [hrest]
      simp [hk]

/-- The base's keys stay where they are, whatever the overlay. -/
theorem keys_prefix_mergeFields (base ov : List (String × Value)) :
    Fields.keys base <+: Fields.keys (mergeFields base ov) := by
  induction ov generalizing base with
  | nil => exact List.prefix_refl _
  | cons kv rest ih =>
    obtain ⟨k, v⟩ := kv
    rw [mergeFields_cons]
    refine List.IsPrefix.trans ?_ (ih _)
    rw [Fields.keys_set]
    split
    · exact List.prefix_refl _
    · exact List.prefix_append _ _

theorem child?_key_of_not_obj {b : Value} (h : ∀ fs, b ≠ .obj fs) (k : String) :
    b.child? (.key k) = none := by
  cases b with
  | obj fs => exact absurd rfl (h fs)
  | _ => rfl

theorem child?_merge_obj (b : Value) {ov : List (String × Value)} (h : (Fields.keys ov).Nodup)
    (k : String) :
    (b.merge (.obj ov)).child? (.key k) =
      match Fields.get? ov k with
      | some x => some ((b.child? (.key k)).elim x (merge · x))
      | none => b.child? (.key k) := by
  by_cases hb : ∃ bf, b = .obj bf
  · obtain ⟨bf, rfl⟩ := hb
    exact get?_mergeFields bf ov h k
  · simp only [not_exists] at hb
    rw [merge_obj_of_not_obj ov hb, child?_key_of_not_obj hb, child?_obj_key]
    cases Fields.get? ov k <;> rfl

/-- At a node of the overlay, the merge holds that node merged onto the base's
node there, or the overlay's node alone where the base has none. -/
theorem get?_merge_of_overlay {o : Value} (ho : o.NodupKeys) (b : Value) (p : List String)
    {n : Value} (h : o.get? (p.map .key) = some n) :
    (b.merge o).get? (p.map .key) = some ((b.get? (p.map .key)).elim n (merge · n)) := by
  induction p generalizing b o with
  | nil => cases h; rfl
  | cons k rest ih =>
    rw [List.map_cons, get?_cons, Option.bind_eq_some_iff] at h
    obtain ⟨x, hx, hn⟩ := h
    cases o with
    | obj ov =>
      have hkeys : (Fields.keys ov).Nodup := ((nodupKeys_obj ov).1 ho).1
      have hov : Fields.get? ov k = some x := hx
      have ihx := ih (ho.child? hx) (h := hn)
      rw [List.map_cons, get?_cons, get?_cons, child?_merge_obj b hkeys k, hov]
      cases b.child? (.key k) with
      | none => simpa using hn
      | some old => simpa using ihx old
    | _ => simp [Value.child?] at hx

/-- Where the overlay has no node and every node above it in the overlay is an
object, the base shows through. -/
theorem get?_merge_of_overlay_none {o : Value} (ho : o.NodupKeys) (b : Value) (p : List String)
    (hp : o.get? (p.map .key) = none)
    (hpre : ∀ q, q <+: p → q ≠ p → ∀ n, o.get? (q.map .key) = some n → ∃ fs, n = .obj fs) :
    (b.merge o).get? (p.map .key) = b.get? (p.map .key) := by
  induction p generalizing b o with
  | nil => simp at hp
  | cons k rest ih =>
    obtain ⟨ov, rfl⟩ := hpre [] List.nil_prefix (List.cons_ne_nil k rest).symm o rfl
    have hkeys : (Fields.keys ov).Nodup := ((nodupKeys_obj ov).1 ho).1
    rw [List.map_cons, get?_cons, get?_cons, child?_merge_obj b hkeys k]
    cases hov : Fields.get? ov k with
    | none => rfl
    | some x =>
      have hxp : x.get? (rest.map .key) = none := by
        simpa [get?_cons, hov] using hp
      have hxpre : ∀ q, q <+: rest → q ≠ rest → ∀ n, x.get? (q.map .key) = some n →
          ∃ fs, n = .obj fs := fun q hq hne n hn =>
        hpre (k :: q) (List.cons_prefix_cons.2 ⟨rfl, hq⟩) (by simpa using hne) n
          (by simpa [get?_cons, hov] using hn)
      have hx : x.NodupKeys := ho.child? (s := .key k) hov
      cases b.child? (.key k) with
      | none => simpa using hxp
      | some old => simpa using ih hx old hxp hxpre

theorem get?_merge_of_objs {o : Value} (ho : o.NodupKeys) (b : Value) (p : List String)
    {bf ov : List (String × Value)} (hb : b.get? (p.map .key) = some (.obj bf))
    (hov : o.get? (p.map .key) = some (.obj ov)) :
    ∃ fs, (b.merge o).get? (p.map .key) = some (.obj fs) ∧
      Fields.keys fs = Fields.keys bf ++ (Fields.keys ov).filter (· ∉ Fields.keys bf) := by
  have hkeys : (Fields.keys ov).Nodup := ((nodupKeys_obj ov).1 (ho.get? hov)).1
  refine ⟨mergeFields bf ov, ?_, keys_mergeFields bf ov hkeys⟩
  rw [get?_merge_of_overlay ho b p hov, hb]
  rfl

theorem get?_merge_of_obj_alone {o : Value} (ho : o.NodupKeys) (b : Value) (p : List String)
    {ov : List (String × Value)} (hov : o.get? (p.map .key) = some (.obj ov))
    (hb : ∀ bf, b.get? (p.map .key) ≠ some (.obj bf)) :
    (b.merge o).get? (p.map .key) = some (.obj ov) := by
  rw [get?_merge_of_overlay ho b p hov]
  cases h : b.get? (p.map .key) with
  | none => rfl
  | some nb =>
    have : ∀ fs, nb ≠ .obj fs := fun fs hfs => hb fs (hfs ▸ h)
    simp [merge_obj_of_not_obj ov this]

theorem get?_merge_of_not_obj {o : Value} (ho : o.NodupKeys) (b : Value) (p : List String)
    {n : Value} (hn : o.get? (p.map .key) = some n) (hobj : ∀ fs, n ≠ .obj fs) :
    (b.merge o).get? (p.map .key) = some n := by
  rw [get?_merge_of_overlay ho b p hn]
  cases b.get? (p.map .key) with
  | none => rfl
  | some nb => simp [merge_of_not_obj nb hobj]

/-- The layers that take part in a merge: those present and objects. -/
def objectLayer? : Option Value → Option Value
  | some (.obj fields) => some (.obj fields)
  | _ => none

theorem foldl_mergeLayer (acc : Value) (layers : List (Option Value)) :
    layers.foldl mergeLayer acc = (layers.filterMap objectLayer?).foldl merge acc := by
  induction layers generalizing acc with
  | nil => rfl
  | cons layer rest ih =>
    rw [List.foldl_cons, ih]
    rcases layer with _ | (_ | _ | _ | _ | _ | fields) <;> rfl

/-- Merged layers form an object whose first key is the settings section. -/
theorem mergeLayers_obj (layers : List (Option Value)) :
    ∃ fs, mergeLayers layers = .obj fs ∧ (Fields.keys fs).head? = some settingsKey := by
  rw [mergeLayers, foldl_mergeLayer]
  suffices h : ∀ (ls : List Value) (bf : List (String × Value)),
      (∀ l ∈ ls, ∃ ov, l = .obj ov) → (Fields.keys bf).head? = some settingsKey →
      ∃ fs, ls.foldl merge (.obj bf) = .obj fs ∧ (Fields.keys fs).head? = some settingsKey by
    refine h _ _ (fun l hl => ?_) rfl
    obtain ⟨layer, -, hlayer⟩ := List.mem_filterMap.1 hl
    rcases layer with _ | (_ | _ | _ | _ | _ | fields) <;> simp [objectLayer?] at hlayer
    exact ⟨fields, hlayer.symm⟩
  intro ls
  induction ls with
  | nil => exact fun bf _ hbf => ⟨bf, rfl, hbf⟩
  | cons l rest ih =>
    intro bf hls hbf
    obtain ⟨ov, rfl⟩ := hls l List.mem_cons_self
    have hpre := keys_prefix_mergeFields bf ov
    refine ih (mergeFields bf ov) (fun l hl => hls l (List.mem_cons_of_mem _ hl)) ?_
    obtain ⟨tail, htail⟩ := hpre
    rw [← htail]
    cases h : Fields.keys bf with
    | nil => simp [h] at hbf
    | cons k ks => simpa [h] using hbf

theorem fieldsNodupKeys_set {fs : List (String × Value)} (hfs : FieldsNodupKeys fs) (key : String)
    {value : Value} (hv : value.NodupKeys) : FieldsNodupKeys (Fields.set fs key value) := by
  rw [fieldsNodupKeys_iff] at hfs ⊢
  intro kv hkv
  rcases Fields.mem_set hkv with rfl | hkv
  · exact hv
  · exact hfs kv hkv

mutual

/-- Merging keeps each key once in every object, whatever keys the overlay repeats. -/
theorem nodupKeys_merge (b o : Value) (hb : b.NodupKeys) (ho : o.NodupKeys) : (b.merge o).NodupKeys := by
  cases o with
  | obj ov =>
    cases b with
    | obj bf => exact nodupKeys_mergeFields bf ov hb.1 hb.2 ho.2
    | _ =>
      rw [merge_obj_of_not_obj ov (by simp)]
      exact ho
  | _ =>
    rw [merge_of_not_obj b (by simp)]
    exact ho

theorem nodupKeys_mergeFields (base ov : List (String × Value)) (hkeys : (Fields.keys base).Nodup)
    (hbase : FieldsNodupKeys base) (hov : FieldsNodupKeys ov) :
    (Fields.keys (mergeFields base ov)).Nodup ∧ FieldsNodupKeys (mergeFields base ov) := by
  cases ov with
  | nil => exact ⟨hkeys, hbase⟩
  | cons kv rest =>
    obtain ⟨k, v⟩ := kv
    obtain ⟨hv, hrest⟩ := hov
    rw [mergeFields_cons]
    have hval : ((Fields.get? base k).elim v (merge · v)).NodupKeys := by
      cases hget : Fields.get? base k with
      | none => exact hv
      | some old =>
        exact nodupKeys_merge old v ((fieldsNodupKeys_iff base).1 hbase _ (Fields.mem_of_get? hget)) hv
    exact nodupKeys_mergeFields _ rest (Fields.nodup_keys_set hkeys _ _) (fieldsNodupKeys_set hbase k hval)
      hrest

end

/-- Merged layers have each key once in every object when the layers do. -/
theorem nodupKeys_mergeLayers {layers : List (Option Value)} (h : ∀ t, some t ∈ layers → t.NodupKeys) :
    (mergeLayers layers).NodupKeys := by
  rw [mergeLayers]
  suffices hfold : ∀ (ls : List (Option Value)) (acc : Value), acc.NodupKeys →
      (∀ t, some t ∈ ls → t.NodupKeys) → (ls.foldl mergeLayer acc).NodupKeys from
    hfold layers layerBase (by simp [layerBase]) h
  intro ls
  induction ls with
  | nil => exact fun acc hacc _ => hacc
  | cons l rest ih =>
    intro acc hacc hls
    refine ih _ ?_ fun t ht => hls t (List.mem_cons_of_mem _ ht)
    rcases l with _ | (_ | _ | _ | _ | _ | fields)
    all_goals first
      | exact hacc
      | exact nodupKeys_merge acc _ hacc (hls _ List.mem_cons_self)

/-- The precedence law of merging the overlay `o` onto the base `b`, read along
every path of keys: the root, overlay nodes that are not objects, places where
the overlay has nothing, objects on both sides, and overlay objects alone. -/
def MergePrecedence (b o : Value) : Prop :=
  ((∀ fs, o ≠ .obj fs) → b.merge o = o) ∧
  (∀ (p : List String) (n : Value), o.get? (p.map .key) = some n → (∀ fs, n ≠ .obj fs) →
    (b.merge o).get? (p.map .key) = some n) ∧
  (∀ p : List String, o.get? (p.map .key) = none →
    (∀ q, q <+: p → q ≠ p → ∀ n, o.get? (q.map .key) = some n → ∃ fs, n = .obj fs) →
    (b.merge o).get? (p.map .key) = b.get? (p.map .key)) ∧
  (∀ (p : List String) (bf ov : List (String × Value)), b.get? (p.map .key) = some (.obj bf) →
    o.get? (p.map .key) = some (.obj ov) →
    ∃ fs, (b.merge o).get? (p.map .key) = some (.obj fs) ∧
      Fields.keys fs = Fields.keys bf ++ (Fields.keys ov).filter (· ∉ Fields.keys bf)) ∧
  (∀ (p : List String) (ov : List (String × Value)), o.get? (p.map .key) = some (.obj ov) →
    (∀ bf, b.get? (p.map .key) ≠ some (.obj bf)) → (b.merge o).get? (p.map .key) = some (.obj ov))

/-- Merging obeys the precedence law at every path, and merging layers is the
left fold of merge over the layers that are objects, onto the settings section,
giving an object whose first key is that section. -/
theorem merge_precedence (b o : Value) (ho : o.NodupKeys) :
    b.MergePrecedence o ∧
    ∀ layers : List (Option Value),
      mergeLayers layers = (layers.filterMap objectLayer?).foldl merge layerBase ∧
      ∃ fs, mergeLayers layers = .obj fs ∧ (Fields.keys fs).head? = some settingsKey := by
  refine ⟨⟨merge_of_not_obj b, fun p _ hn hobj => get?_merge_of_not_obj ho b p hn hobj,
    get?_merge_of_overlay_none ho b, fun p _ _ hb hov => get?_merge_of_objs ho b p hb hov,
    fun p _ hov hb => get?_merge_of_obj_alone ho b p hov hb⟩, fun layers => ?_⟩
  exact ⟨foldl_mergeLayer layerBase layers, mergeLayers_obj layers⟩

theorem merge_precedence_nested :
    (obj [("a", obj [("c", num (.int 3)), ("d", num (.int 4))])]).NodupKeys ∧
    (obj [("a", obj [("b", num (.int 1)), ("c", num (.int 2))])]).MergePrecedence
      (obj [("a", obj [("c", num (.int 3)), ("d", num (.int 4))])]) ∧
    ∀ layers : List (Option Value),
      mergeLayers layers = (layers.filterMap objectLayer?).foldl merge layerBase ∧
      ∃ fs, mergeLayers layers = .obj fs ∧ (Fields.keys fs).head? = some settingsKey := by
  have h : (obj [("a", obj [("c", num (.int 3)), ("d", num (.int 4))])]).NodupKeys := by
    simp
  exact ⟨h, merge_precedence _ _ h⟩

end Value

end LayeredConfig
