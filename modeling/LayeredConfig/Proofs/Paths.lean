import LayeredConfig.Tree.Path

/-! Paths into trees: which nodes exist, and what assigning at one path does to
the nodes at the others.

Trees read from text have each key once in every object; `Value.NodupKeys`
states it, and it is the only shape fact the laws here need. Two paths are
*apart* when neither is a prefix of the other. Assigning at a path whose node
exists always succeeds, leaves the node at every apart path as it was, and
commutes with an assignment at an apart path whose node exists. -/

namespace LayeredConfig

open scoped List

namespace Fields

variable {α : Type}

@[simp] theorem get?_cons (k key : String) (v : α) (rest : List (String × α)) :
    get? ((k, v) :: rest) key = if k = key then some v else get? rest key := rfl

@[simp] theorem keys_nil : keys ([] : List (String × α)) = [] := rfl

@[simp] theorem keys_cons (kv : String × α) (rest : List (String × α)) :
    keys (kv :: rest) = kv.1 :: keys rest := rfl

theorem get?_eq_none_of_not_mem {fs : List (String × α)} {key : String}
    (h : key ∉ keys fs) : get? fs key = none := by
  induction fs with
  | nil => rfl
  | cons kv rest ih =>
    obtain ⟨k, v⟩ := kv
    simp only [keys_cons, List.mem_cons, not_or] at h
    simp [Ne.symm h.1, ih h.2]

theorem isSome_get?_iff (fs : List (String × α)) (key : String) :
    (get? fs key).isSome ↔ key ∈ keys fs := by
  induction fs with
  | nil => simp
  | cons kv rest ih =>
    obtain ⟨k, v⟩ := kv
    by_cases h : k = key
    · simp [h]
    · simp [h, ih, Ne.symm h]

theorem mem_of_get? {fs : List (String × α)} {key : String} {v : α}
    (h : get? fs key = some v) : (key, v) ∈ fs := by
  induction fs with
  | nil => simp at h
  | cons kv rest ih =>
    obtain ⟨k, w⟩ := kv
    by_cases hk : k = key
    · simp_all
    · simp only [get?_cons, hk, if_false] at h
      exact List.mem_cons_of_mem _ (ih h)

theorem get?_of_mem {fs : List (String × α)} {key : String} {v : α}
    (hd : (keys fs).Nodup) (h : (key, v) ∈ fs) : get? fs key = some v := by
  induction fs with
  | nil => simp at h
  | cons kv rest ih =>
    obtain ⟨k, w⟩ := kv
    simp only [keys_cons, List.nodup_cons] at hd
    rcases List.mem_cons.1 h with h | h
    · simp_all
    · have hk : k ≠ key := by
        rintro rfl
        exact hd.1 (List.mem_map_of_mem (f := Prod.fst) h)
      simp [hk, ih hd.2 h]

theorem keys_set (fs : List (String × α)) (key : String) (value : α) :
    keys (set fs key value) = if key ∈ keys fs then keys fs else keys fs ++ [key] := by
  induction fs with
  | nil => rfl
  | cons kv rest ih =>
    obtain ⟨k, v⟩ := kv
    by_cases h : k = key
    · simp [set, h]
    · simp only [set, h, if_false, keys_cons, ih, List.mem_cons, Ne.symm h, false_or]
      split <;> simp

theorem mem_set {fs : List (String × α)} {key : String} {value : α} {kv : String × α}
    (h : kv ∈ set fs key value) : kv = (key, value) ∨ kv ∈ fs := by
  induction fs with
  | nil => simpa [set] using h
  | cons kv' rest ih =>
    obtain ⟨k, v⟩ := kv'
    by_cases hk : k = key
    · simp only [set, hk, if_true, List.mem_cons] at h
      exact h.imp_right (List.mem_cons_of_mem _)
    · simp only [set, hk, if_false, List.mem_cons] at h
      rcases h with rfl | h
      · exact Or.inr List.mem_cons_self
      · exact (ih h).imp_right (List.mem_cons_of_mem _)

theorem nodup_keys_set {fs : List (String × α)} (h : (keys fs).Nodup) (key : String) (value : α) :
    (keys (set fs key value)).Nodup := by
  rw [keys_set]
  split
  · exact h
  · rename_i hk
    simp only [List.nodup_append, List.nodup_cons, List.not_mem_nil, not_false_eq_true,
      List.nodup_nil, and_self, List.mem_singleton, true_and]
    refine ⟨h, ?_⟩
    rintro a ha _ rfl rfl
    exact hk ha

theorem get?_erase_ne (fs : List (String × α)) {key other : String} (h : other ≠ key) :
    get? (erase fs key) other = get? fs other := by
  induction fs with
  | nil => rfl
  | cons kv rest ih =>
    obtain ⟨k, v⟩ := kv
    by_cases hk : k = key
    · subst hk; simp [erase, Ne.symm h]
    · simp [erase, hk, ih]

theorem set_set (fs : List (String × α)) (key : String) (a b : α) :
    set (set fs key a) key b = set fs key b := by
  induction fs with
  | nil => simp [set]
  | cons kv rest ih =>
    obtain ⟨k, v⟩ := kv
    by_cases hk : k = key
    · simp [set, hk]
    · simp [set, hk, ih]

theorem set_comm {fs : List (String × α)} {k₁ k₂ : String} (a b : α) (hne : k₁ ≠ k₂)
    (h₁ : k₁ ∈ keys fs) (h₂ : k₂ ∈ keys fs) :
    set (set fs k₁ a) k₂ b = set (set fs k₂ b) k₁ a := by
  induction fs with
  | nil => simp at h₁
  | cons kv rest ih =>
    obtain ⟨k, v⟩ := kv
    simp only [keys_cons, List.mem_cons] at h₁ h₂
    by_cases hk₁ : k = k₁
    · subst hk₁; simp [set, hne]
    · by_cases hk₂ : k = k₂
      · subst hk₂; simp [set, Ne.symm hne]
      · simp only [set, hk₁, hk₂, if_false]
        rw [ih (h₁.resolve_left (Ne.symm hk₁)) (h₂.resolve_left (Ne.symm hk₂))]

theorem erase_set_self (fs : List (String × α)) (key : String) (value : α) :
    erase (set fs key value) key = erase fs key := by
  induction fs with
  | nil => simp [set, erase]
  | cons kv rest ih =>
    obtain ⟨k, v⟩ := kv
    by_cases hk : k = key
    · simp [set, erase, hk]
    · simp [set, erase, hk, ih]

theorem erase_comm (fs : List (String × α)) (k₁ k₂ : String) :
    erase (erase fs k₁) k₂ = erase (erase fs k₂) k₁ := by
  induction fs with
  | nil => rfl
  | cons kv rest ih =>
    obtain ⟨k, v⟩ := kv
    by_cases hk₁ : k = k₁
    · subst hk₁
      by_cases hk₂ : k = k₂
      · subst hk₂; rfl
      · simp [erase, hk₂]
    · by_cases hk₂ : k = k₂
      · subst hk₂; simp [erase, hk₁]
      · simp [erase, hk₁, hk₂, ih]

theorem set_erase_comm {fs : List (String × α)} {k₁ k₂ : String} (a : α) (hne : k₁ ≠ k₂)
    (h₁ : k₁ ∈ keys fs) : set (erase fs k₂) k₁ a = erase (set fs k₁ a) k₂ := by
  induction fs with
  | nil => simp at h₁
  | cons kv rest ih =>
    obtain ⟨k, v⟩ := kv
    simp only [keys_cons, List.mem_cons] at h₁
    by_cases hk₂ : k = k₂
    · subst hk₂; simp [set, erase, Ne.symm hne]
    · by_cases hk₁ : k = k₁
      · subst hk₁; simp [set, erase, hk₂]
      · simp only [set, erase, hk₁, hk₂, if_false]
        rw [ih (h₁.resolve_left (Ne.symm hk₁))]

theorem erase_eq_filter {fs : List (String × α)} (h : (keys fs).Nodup) (key : String) :
    erase fs key = fs.filter (·.1 ≠ key) := by
  induction fs with
  | nil => rfl
  | cons kv rest ih =>
    obtain ⟨k, v⟩ := kv
    simp only [keys_cons, List.nodup_cons] at h
    by_cases hk : k = key
    · subst hk
      have hrest : ∀ kv ∈ rest, kv.1 ≠ k := fun kv hkv hkk =>
        h.1 (by simpa [keys, hkk] using List.mem_map_of_mem (f := Prod.fst) hkv)
      have hkeep : rest.filter (fun kv : String × α => decide (kv.1 ≠ k)) = rest :=
        List.filter_eq_self.2 fun kv hkv => by simpa using hrest kv hkv
      simp only [erase, if_true]
      rw [List.filter_cons_of_neg (by simp), hkeep]
    · simp [erase, hk, ih h.2]

/-- Erasing keys one after another, in a list with each key once, keeps the other fields. -/
theorem foldl_erase_eq_filter {fs : List (String × α)} (h : (keys fs).Nodup)
    (removed : List String) :
    removed.foldl erase fs = fs.filter (·.1 ∉ removed) := by
  induction removed generalizing fs with
  | nil => exact (List.filter_eq_self.2 (by simp)).symm
  | cons k rest ih =>
    have hsub : keys (fs.filter (·.1 ≠ k)) <+ keys fs := (List.filter_sublist).map Prod.fst
    rw [List.foldl_cons, erase_eq_filter h, ih (hsub.nodup h), List.filter_filter]
    refine List.filter_congr fun kv _ => ?_
    by_cases hk : kv.1 = k <;> simp [hk]

theorem modify?_eq (fs : List (String × α)) (key : String) (f : α → Option α) :
    modify? fs key f = (get? fs key).bind fun c => (f c).map (set fs key) := by
  induction fs with
  | nil => rfl
  | cons kv rest ih =>
    obtain ⟨k, v⟩ := kv
    by_cases hk : k = key
    · subst hk; cases f v <;> simp [modify?, set]
    · simp only [modify?, hk, if_false, get?_cons, ih]
      cases get? rest key <;> simp [set, hk, Function.comp_def]

end Fields

namespace Value

mutual

/-- Every object of the tree has each key once. -/
def NodupKeys : Value → Prop
  | .arr items => ItemsNodupKeys items
  | .obj fields => (Fields.keys fields).Nodup ∧ FieldsNodupKeys fields
  | _ => True

def ItemsNodupKeys : List Value → Prop
  | [] => True
  | v :: rest => NodupKeys v ∧ ItemsNodupKeys rest

def FieldsNodupKeys : List (String × Value) → Prop
  | [] => True
  | (_, v) :: rest => NodupKeys v ∧ FieldsNodupKeys rest

end

theorem itemsNodupKeys_iff (items : List Value) :
    ItemsNodupKeys items ↔ ∀ v ∈ items, v.NodupKeys := by
  induction items with
  | nil => simp [ItemsNodupKeys]
  | cons v rest ih => simp [ItemsNodupKeys, ih]

theorem fieldsNodupKeys_iff (fields : List (String × Value)) :
    FieldsNodupKeys fields ↔ ∀ kv ∈ fields, kv.2.NodupKeys := by
  induction fields with
  | nil => simp [FieldsNodupKeys]
  | cons kv rest ih =>
    obtain ⟨k, v⟩ := kv
    simp [FieldsNodupKeys, ih]

@[simp] theorem nodupKeys_arr (items : List Value) :
    (arr items).NodupKeys ↔ ∀ v ∈ items, v.NodupKeys := by
  simp [NodupKeys, itemsNodupKeys_iff]

@[simp] theorem nodupKeys_obj (fields : List (String × Value)) :
    (obj fields).NodupKeys ↔ (Fields.keys fields).Nodup ∧ ∀ kv ∈ fields, kv.2.NodupKeys := by
  simp [NodupKeys, fieldsNodupKeys_iff]

@[simp] theorem nodupKeys_null : null.NodupKeys := trivial
@[simp] theorem nodupKeys_bool (b : Bool) : (bool b).NodupKeys := trivial
@[simp] theorem nodupKeys_num (n : Number) : (num n).NodupKeys := trivial
@[simp] theorem nodupKeys_str (s : String) : (str s).NodupKeys := trivial

@[simp] theorem get?_nil (v : Value) : v.get? [] = some v := rfl

theorem get?_cons (v : Value) (s : Step) (rest : KeyPath) :
    v.get? (s :: rest) = (v.child? s).bind fun c => c.get? rest := rfl

@[simp] theorem child?_obj_key (fields : List (String × Value)) (k : String) :
    (obj fields).child? (.key k) = Fields.get? fields k := rfl

@[simp] theorem child?_arr_index (items : List Value) (i : Nat) :
    (arr items).child? (.index i) = items[i]? := rfl

theorem get?_append (v : Value) (p q : KeyPath) :
    v.get? (p ++ q) = (v.get? p).bind fun c => c.get? q := by
  induction p generalizing v with
  | nil => rfl
  | cons s rest ih =>
    simp only [List.cons_append, get?_cons]
    cases v.child? s with
    | none => rfl
    | some c => exact ih c

theorem NodupKeys.child? {v c : Value} {s : Step} (hv : v.NodupKeys) (h : v.child? s = some c) :
    c.NodupKeys := by
  cases v <;> cases s <;> simp only [Value.child?, reduceCtorEq] at h
  case arr.index items i =>
    exact (nodupKeys_arr items).1 hv c (List.mem_of_getElem? h)
  case obj.key fields k =>
    exact (nodupKeys_obj fields).1 hv |>.2 _ (Fields.mem_of_get? h)

theorem NodupKeys.get? {v c : Value} {p : KeyPath} (hv : v.NodupKeys) (h : v.get? p = some c) :
    c.NodupKeys := by
  induction p generalizing v with
  | nil => cases h; exact hv
  | cons s rest ih =>
    rw [get?_cons, Option.bind_eq_some_iff] at h
    obtain ⟨d, hd, hc⟩ := h
    exact ih (hv.child? hd) hc

end Value

namespace KeyPath

/-- Neither path is a prefix of the other: they lead to disjoint parts of a tree. -/
def Apart (p q : KeyPath) : Prop := ¬ p <+: q ∧ ¬ q <+: p

theorem Apart.symm {p q : KeyPath} (h : Apart p q) : Apart q p := ⟨h.2, h.1⟩

theorem not_apart_nil_left (q : KeyPath) : ¬ Apart [] q := fun h => h.1 List.nil_prefix

theorem not_apart_nil_right (p : KeyPath) : ¬ Apart p [] := fun h => h.2 List.nil_prefix

theorem apart_cons_cons {s t : Step} {p q : KeyPath} :
    Apart (s :: p) (t :: q) ↔ s ≠ t ∨ Apart p q := by
  by_cases h : s = t
  · subst h; simp [Apart]
  · simp [Apart, h, Ne.symm h]

end KeyPath

namespace Value

/-! ### Assigning one step down -/

theorem assignStep_isSome {v : Value} {s : Step} (h : (v.child? s).isSome) (o : Option Value) :
    (v.assignStep s o).isSome := by
  cases v <;> cases s <;> simp only [Value.child?, Option.isSome_none, Bool.false_eq_true] at h
  case arr.index items i =>
    have hi : i < items.length := by simpa using h
    simp [assignStep, hi]
  case obj.key fields k => cases o <;> rfl

theorem child?_assignStep_ne {v w : Value} {s t : Step} {o : Option Value}
    (h : v.assignStep s o = some w) (hne : t ≠ s) : w.child? t = v.child? t := by
  cases v <;> cases s <;> simp only [assignStep, reduceCtorEq] at h
  case arr.index items i =>
    split at h
    · cases h
      cases t with
      | key k => rfl
      | index j =>
        have : i ≠ j := fun hij => hne (hij ▸ rfl)
        simp [List.getElem?_set_ne this]
    · cases h
  case obj.key fields k =>
    cases t with
    | index j => cases o <;> cases h <;> rfl
    | key k' =>
      have hk : k' ≠ k := fun h => hne (h ▸ rfl)
      cases o <;> cases h
      · exact Fields.get?_erase_ne fields hk
      · exact Fields.get?_set_ne fields _ hk

theorem child?_assignStep_self {v w x : Value} {s : Step}
    (h : v.assignStep s (some x) = some w) : w.child? s = some x := by
  cases v <;> cases s <;> simp only [assignStep, reduceCtorEq] at h
  case arr.index items i =>
    split at h
    · cases h; simp [*]
    · cases h
  case obj.key fields k => cases h; exact Fields.get?_set_self fields k x

theorem assignStep_assignStep_self {v w x : Value} {s : Step} (o : Option Value)
    (h : v.assignStep s (some x) = some w) : w.assignStep s o = v.assignStep s o := by
  cases v <;> cases s <;> simp only [assignStep, reduceCtorEq] at h
  case arr.index items i =>
    split at h
    · cases h; simp [assignStep, List.set_set, *]
    · cases h
  case obj.key fields k =>
    cases h
    cases o with
    | some y => simp [assignStep, Fields.set_set]
    | none => simp [assignStep, Fields.erase_set_self]

theorem assignStep_comm {v : Value} {s t : Step} (hs : (v.child? s).isSome)
    (ht : (v.child? t).isSome) (hne : s ≠ t) (a b : Option Value) :
    (v.assignStep s a).bind (·.assignStep t b) = (v.assignStep t b).bind (·.assignStep s a) := by
  cases v <;> cases s <;> cases t <;>
    simp only [Value.child?, Option.isSome_none, Bool.false_eq_true] at hs ht
  case arr.index.index items i j =>
    have hi : i < items.length := by simpa using hs
    have hj : j < items.length := by simpa using ht
    have hij : i ≠ j := fun h => hne (h ▸ rfl)
    simp [assignStep, hi, hj, List.set_comm _ _ hij]
  case obj.key.key fields k₁ k₂ =>
    have h₁ : k₁ ∈ Fields.keys fields := (Fields.isSome_get?_iff _ _).1 hs
    have h₂ : k₂ ∈ Fields.keys fields := (Fields.isSome_get?_iff _ _).1 ht
    have hk : k₁ ≠ k₂ := fun h => hne (h ▸ rfl)
    cases a <;> cases b <;> simp only [assignStep, Option.bind_some, Option.some.injEq, obj.injEq]
    · exact Fields.erase_comm fields k₁ k₂
    · exact Fields.set_erase_comm _ (Ne.symm hk) h₂
    · exact (Fields.set_erase_comm _ hk h₁).symm
    · exact Fields.set_comm _ _ hk h₁ h₂

/-! ### Assigning along a path -/

theorem isSome_get?_cons {v : Value} {s : Step} {rest : KeyPath} :
    (v.get? (s :: rest)).isSome ↔ ∃ c, v.child? s = some c ∧ (c.get? rest).isSome := by
  rw [get?_cons]
  cases v.child? s <;> simp

/-- What the child under a path's first step becomes: the value assigned, for a
path of one step, or else the child with the rest of the path assigned. -/
def childAssign? (c : Option Value) (rest : KeyPath) (o : Option Value) : Option (Option Value) :=
  match rest with
  | [] => some o
  | _ :: _ => (c.bind fun c => c.assign? rest o).map some

theorem assign?_cons (v : Value) (s : Step) (rest : KeyPath) (o : Option Value) :
    v.assign? (s :: rest) o = (childAssign? (v.child? s) rest o).bind (v.assignStep s) := by
  cases rest with
  | nil => rfl
  | cons t rest =>
    cases v <;> cases s <;> simp only [assign?, childAssign?, Value.child?, Option.bind_none,
      Option.map_none]
    case arr.index items i =>
      cases hc : items[i]? with
      | none => rfl
      | some c =>
        have hi : i < items.length := (List.getElem?_eq_some_iff.1 hc).1
        cases h : c.assign? (t :: rest) o <;> simp [h, assignStep, hi]
    case obj.key fields k =>
      rw [Fields.modify?_eq]
      cases Fields.get? fields k with
      | none => rfl
      | some c => cases h : c.assign? (t :: rest) o <;> simp [h, assignStep]

theorem assign?_cons_of_child? {v c : Value} {s : Step} (h : v.child? s = some c) {rest : KeyPath}
    (hrest : rest ≠ []) (o : Option Value) :
    v.assign? (s :: rest) o = (c.assign? rest o).bind fun c' => v.assignStep s (some c') := by
  rw [assign?_cons, h]
  cases rest with
  | nil => exact absurd rfl hrest
  | cons t rest =>
    simp only [childAssign?, Option.bind_some]
    cases c.assign? (t :: rest) o <;> rfl

theorem assign?_cons_eq_assignStep {v c : Value} {s : Step} {p : KeyPath} {o x : Option Value}
    (hc : v.child? s = some c) (hx : childAssign? (some c) p o = some x) :
    v.assign? (s :: p) o = v.assignStep s x := by
  rw [assign?_cons, hc, hx, Option.bind_some]

theorem bind_assign?_cons_of_child? {v c : Value} {s : Step} {p q : KeyPath} (hc : v.child? s = some c)
    (hp : p ≠ []) (hq : q ≠ []) (a b : Option Value) :
    (v.assign? (s :: p) a).bind (·.assign? (s :: q) b) =
      ((c.assign? p a).bind (·.assign? q b)).bind fun c' => v.assignStep s (some c') := by
  rw [assign?_cons_of_child? hc hp, Option.bind_assoc, Option.bind_assoc]
  congr 1
  funext c₁
  obtain ⟨v₁, hv₁⟩ := Option.isSome_iff_exists.1 (assignStep_isSome (v := v) (s := s)
    (by simp [hc]) (some c₁))
  rw [hv₁, Option.bind_some, assign?_cons_of_child? (child?_assignStep_self hv₁) hq]
  congr 1
  funext c₂
  exact assignStep_assignStep_self _ hv₁

theorem assign?_isSome {v : Value} {p : KeyPath} (h : (v.get? p).isSome) (o : Option Value) :
    (v.assign? p o).isSome := by
  induction p generalizing v with
  | nil => rfl
  | cons s rest ih =>
    obtain ⟨c, hc, h⟩ := isSome_get?_cons.1 h
    have hsome : (v.child? s).isSome := by simp [hc]
    cases rest with
    | nil => exact assignStep_isSome hsome o
    | cons t rest =>
      rw [assign?_cons_of_child? hc (List.cons_ne_nil t rest)]
      obtain ⟨c', hc'⟩ := Option.isSome_iff_exists.1 (ih h (v := c))
      simp [hc', assignStep_isSome hsome]

theorem childAssign?_isSome {c : Value} {p : KeyPath} (h : (c.get? p).isSome) (o : Option Value) :
    (childAssign? (some c) p o).isSome := by
  cases p with
  | nil => rfl
  | cons t rest => simpa [childAssign?] using assign?_isSome h o

/-- Assigning at a path leaves the node at every apart path as it was. -/
theorem get?_assign?_of_apart {v w : Value} {p q : KeyPath} {o : Option Value}
    (h : v.assign? p o = some w) (hpq : KeyPath.Apart p q) : w.get? q = v.get? q := by
  induction p generalizing v w q with
  | nil => exact absurd hpq (KeyPath.not_apart_nil_left q)
  | cons s rest ih =>
    cases q with
    | nil => exact absurd hpq (KeyPath.not_apart_nil_right _)
    | cons t q =>
      rw [assign?_cons, Option.bind_eq_some_iff] at h
      obtain ⟨x, hx, hw⟩ := h
      by_cases hts : t = s
      · subst hts
        have hapart : KeyPath.Apart rest q := (KeyPath.apart_cons_cons.1 hpq).resolve_left (by simp)
        cases rest with
        | nil => exact absurd hapart (KeyPath.not_apart_nil_left q)
        | cons r rest =>
          simp only [childAssign?, Option.map_eq_some_iff, Option.bind_eq_some_iff] at hx
          obtain ⟨c', ⟨c, hc, hc'⟩, rfl⟩ := hx
          rw [get?_cons, get?_cons, child?_assignStep_self hw, hc, Option.bind_some,
            Option.bind_some, ih hc' hapart]
      · rw [get?_cons, get?_cons, child?_assignStep_ne hw hts]

/-- Assignments at two apart paths whose nodes exist commute. -/
theorem assign?_comm {v : Value} {p q : KeyPath} (hp : (v.get? p).isSome) (hq : (v.get? q).isSome)
    (hpq : KeyPath.Apart p q) (a b : Option Value) :
    (v.assign? p a).bind (·.assign? q b) = (v.assign? q b).bind (·.assign? p a) := by
  induction p generalizing v q with
  | nil => exact absurd hpq (KeyPath.not_apart_nil_left q)
  | cons s p ih =>
    cases q with
    | nil => exact absurd hpq (KeyPath.not_apart_nil_right _)
    | cons t q =>
      obtain ⟨cs, hcs, hp⟩ := isSome_get?_cons.1 hp
      obtain ⟨ct, hct, hq⟩ := isSome_get?_cons.1 hq
      by_cases hst : s = t
      · subst hst
        rw [hcs, Option.some.injEq] at hct
        subst hct
        have hapart : KeyPath.Apart p q := (KeyPath.apart_cons_cons.1 hpq).resolve_left (by simp)
        have hpne : p ≠ [] := by rintro rfl; exact KeyPath.not_apart_nil_left q hapart
        have hqne : q ≠ [] := by rintro rfl; exact KeyPath.not_apart_nil_right p hapart
        rw [bind_assign?_cons_of_child? hcs hpne hqne, bind_assign?_cons_of_child? hcs hqne hpne,
          ih hp hq hapart]
      · obtain ⟨x, hx⟩ := Option.isSome_iff_exists.1 (childAssign?_isSome hp a)
        obtain ⟨y, hy⟩ := Option.isSome_iff_exists.1 (childAssign?_isSome hq b)
        obtain ⟨v₁, hv₁⟩ := Option.isSome_iff_exists.1 (assignStep_isSome (v := v) (s := s)
          (by simp [hcs]) x)
        obtain ⟨v₂, hv₂⟩ := Option.isSome_iff_exists.1 (assignStep_isSome (v := v) (s := t)
          (by simp [hct]) y)
        have hcomm := assignStep_comm (v := v) (by simp [hcs]) (by simp [hct]) hst x y
        rw [hv₁, hv₂, Option.bind_some, Option.bind_some] at hcomm
        rw [assign?_cons_eq_assignStep hcs hx, assign?_cons_eq_assignStep hct hy, hv₁, hv₂,
          Option.bind_some, Option.bind_some,
          assign?_cons_eq_assignStep ((child?_assignStep_ne hv₁ (Ne.symm hst)).trans hct) hy,
          assign?_cons_eq_assignStep ((child?_assignStep_ne hv₂ hst).trans hcs) hx, hcomm]

end Value

end LayeredConfig
