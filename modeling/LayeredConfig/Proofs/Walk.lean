import LayeredConfig.Proofs.Leaves
import LayeredConfig.Tree.Walk
import Mathlib

/-! What a walk does to a tree, over any lawful monad. When every visit
succeeds, each string leaf becomes the outcome of the visitor's answer (the
leaf itself, its replacement, or nothing: erased from its object, `null` in an
array or at the root), and every other node keeps its kind, scalars their value,
arrays their length and objects their keys in order. `Rewrites ok` states this
shape, with `ok` saying which outcomes a leaf may have. A visitor that also
appends to a list state leaves there what it notes for each leaf, in pre-order.

The walk runs in an arbitrary monad, so its results are stated with
`SatisfiesM`: every result the monad can produce has the property. -/

namespace LayeredConfig

open scoped List

/-- What an answer makes of a node: the node itself, its replacement, or nothing. -/
def Visit.outcome (node : Value) : Visit → Option Value
  | .keep => some node
  | .replace v => some v
  | .remove => none

namespace Value

theorem settleItem_eq (item : Value) (a : Visit) : settleItem item a = (a.outcome item).getD .null := by
  cases a <;> rfl

theorem filter_not_mem_cons {fields : List (String × Value)} {k : String}
    (hk : k ∉ Fields.keys fields) (removed : List String) :
    fields.filter (·.1 ∉ k :: removed) = fields.filter (·.1 ∉ removed) := by
  refine List.filter_congr fun kv hkv => ?_
  have : kv.1 ≠ k := fun h => hk (h ▸ List.mem_map_of_mem hkv)
  simp [this]

section Walk

variable {m : Type → Type} [Monad m] [LawfulMonad m] {ε β : Type}
  {visit : KeyPath → String → StateT (List β) m (Except ε Visit)}
  {note : KeyPath → String → List β} {ok : KeyPath → String → Option Value → Prop}

def notesOf (note : KeyPath → String → List β) (ls : List (KeyPath × String)) : List β :=
  ls.flatMap fun q => note q.1 q.2

@[simp] theorem notesOf_nil (note : KeyPath → String → List β) : notesOf note [] = [] := rfl

@[simp] theorem notesOf_append (note : KeyPath → String → List β) (a b : List (KeyPath × String)) :
    notesOf note (a ++ b) = notesOf note a ++ notesOf note b := List.flatMap_append

@[simp] theorem notesOf_singleton (note : KeyPath → String → List β) (q : KeyPath × String) :
    notesOf note [q] = note q.1 q.2 := by simp [notesOf]

-- the mutual block below uses `hvisit` through its recursive calls only
set_option linter.unusedSectionVars false

variable (hvisit : ∀ p l s, SatisfiesM (fun r : Except ε Visit × List β =>
  ∀ a, r.1 = .ok a → ok p l (a.outcome (.str l)) ∧ r.2 = s ++ note p l) ((visit p l).run s))
include hvisit

mutual

/-- A walk that succeeds rewrites the node as the answers allow, and notes its
leaves in pre-order. -/
theorem walkNode_rewrites (p : KeyPath) (v : Value) (hv : v.NodupKeys) (s : List β) :
    SatisfiesM (fun r : (Value × Except ε Visit) × List β => ∀ a, r.1.2 = .ok a →
      Rewrites ok p v (a.outcome r.1.1) ∧ r.2 = s ++ notesOf note (leaves p v))
      ((walkNode visit p v).run s) := by
  cases v with
  | str l =>
    simp only [walkNode, bind_pure_comp, StateT.run_map]
    apply SatisfiesM.map (hvisit p l s)
    intro r h a ha
    obtain ⟨hok, hs⟩ := h a ha
    exact ⟨.leaf hok, by simpa [leaves] using hs⟩
  | arr items =>
    simp only [walkNode, bind_pure_comp, StateT.run_map]
    apply SatisfiesM.map (walkItems_rewrites p 0 items hv s)
    rintro ⟨⟨items', failure⟩, s'⟩ h a ha
    cases failure with
    | some e => cases ha
    | none =>
      cases ha
      obtain ⟨hitems, hs⟩ := h rfl
      exact ⟨.arr hitems, by simpa [leaves] using hs⟩
  | obj fields =>
    obtain ⟨hkeys, hfields⟩ := hv
    simp only [walkNode, StateT.run_bind]
    refine SatisfiesM.bind (walkFields_rewrites p fields hfields hkeys s) ?_
    rintro ⟨⟨fields', removed, failure⟩, s'⟩ h
    dsimp only at h
    cases failure with
    | some e => exact SatisfiesM.pure fun a ha => by cases ha
    | none =>
      refine SatisfiesM.pure fun a ha => ?_
      cases ha
      obtain ⟨hrw, hkeys', -, hs⟩ := h rfl
      rw [Visit.outcome, Fields.foldl_erase_eq_filter (hkeys' ▸ hkeys)]
      exact ⟨.obj hrw, by simpa [leaves] using hs⟩
  | null => exact SatisfiesM.pure fun a ha => by cases ha; exact ⟨.null, by simp [leaves]⟩
  | bool b => exact SatisfiesM.pure fun a ha => by cases ha; exact ⟨.bool, by simp [leaves]⟩
  | num n => exact SatisfiesM.pure fun a ha => by cases ha; exact ⟨.num, by simp [leaves]⟩

theorem walkItems_rewrites (p : KeyPath) (i : Nat) (items : List Value)
    (hitems : ItemsNodupKeys items) (s : List β) :
    SatisfiesM (fun r : (List Value × Option ε) × List β => r.1.2 = none →
      RewritesItems ok p i items r.1.1 ∧ r.2 = s ++ notesOf note (itemLeaves p i items))
      ((walkItems visit p i items).run s) := by
  cases items with
  | nil => exact SatisfiesM.pure fun _ => ⟨.nil, by simp [itemLeaves]⟩
  | cons item rest =>
    obtain ⟨hitem, hrest⟩ := hitems
    simp only [walkItems, StateT.run_bind]
    refine SatisfiesM.bind (walkNode_rewrites (p ++ [.index i]) item hitem s) ?_
    rintro ⟨⟨item', answer⟩, s₁⟩ h₁
    dsimp only at h₁
    cases answer with
    | error e => exact SatisfiesM.pure fun h => by cases h
    | ok a =>
      obtain ⟨hrw, hs₁⟩ := h₁ a rfl
      simp only [StateT.run_bind]
      refine SatisfiesM.bind (walkItems_rewrites p (i + 1) rest hrest s₁) ?_
      rintro ⟨⟨rest', failure⟩, s₂⟩ h₂
      dsimp only at h₂
      refine SatisfiesM.pure fun hf => ?_
      obtain ⟨hitems', hs₂⟩ := h₂ hf
      rw [settleItem_eq]
      exact ⟨.cons hrw hitems', by simp [itemLeaves, hs₂, hs₁]⟩

theorem walkFields_rewrites (p : KeyPath) (fields : List (String × Value))
    (hfields : FieldsNodupKeys fields) (hkeys : (Fields.keys fields).Nodup) (s : List β) :
    SatisfiesM (fun r : (List (String × Value) × List String × Option ε) × List β =>
      r.1.2.2 = none →
        RewritesFields ok p fields (r.1.1.filter (·.1 ∉ r.1.2.1)) ∧
        Fields.keys r.1.1 = Fields.keys fields ∧ (∀ k ∈ r.1.2.1, k ∈ Fields.keys fields) ∧
        r.2 = s ++ notesOf note (fieldLeaves p fields))
      ((walkFields visit p fields).run s) := by
  cases fields with
  | nil => exact SatisfiesM.pure fun _ => ⟨.nil, rfl, by simp, by simp [fieldLeaves]⟩
  | cons kv rest =>
    obtain ⟨k, child⟩ := kv
    obtain ⟨hchild, hrest⟩ := hfields
    simp only [Fields.keys_cons, List.nodup_cons] at hkeys
    simp only [walkFields, StateT.run_bind]
    refine SatisfiesM.bind (walkNode_rewrites (p ++ [.key k]) child hchild s) ?_
    rintro ⟨⟨child', answer⟩, s₁⟩ h₁
    dsimp only at h₁
    cases answer with
    | error e => exact SatisfiesM.pure fun h => by cases h
    | ok a =>
      obtain ⟨hrw, hs₁⟩ := h₁ a rfl
      simp only [StateT.run_bind]
      refine SatisfiesM.bind (walkFields_rewrites p rest hrest hkeys.2 s₁) ?_
      rintro ⟨⟨rest', removed, failure⟩, s₂⟩ h₂
      dsimp only at h₂
      cases a with
      | keep | replace _ =>
        refine SatisfiesM.pure fun hf => ?_
        obtain ⟨hrw', hkeys', hremoved, hs₂⟩ := h₂ hf
        have hk : k ∉ removed := fun hk => hkeys.1 (hremoved k hk)
        refine ⟨?_, by simp [hkeys'], fun k' hk' => by simp [hremoved k' hk'],
          by simp [fieldLeaves, hs₂, hs₁]⟩
        rw [List.filter_cons_of_pos (by simpa using hk)]
        exact .keep hrw hrw'
      | remove =>
        refine SatisfiesM.pure fun hf => ?_
        obtain ⟨hrw', hkeys', hremoved, hs₂⟩ := h₂ hf
        refine ⟨?_, by simp [hkeys'], ?_, by simp [fieldLeaves, hs₂, hs₁]⟩
        · rw [List.filter_cons_of_neg (by simp), filter_not_mem_cons (hkeys' ▸ hkeys.1)]
          exact .drop hrw hrw'
        · intro k' hk'
          rcases List.mem_cons.1 hk' with rfl | hk'
          · simp
          · simp [hremoved k' hk']

end

/-- A whole walk that succeeds rewrites the tree as the answers allow, a removed
root becoming `null`, and notes its leaves in pre-order. -/
theorem walk_rewrites (tree : Value) (ht : tree.NodupKeys) (s : List β) :
    SatisfiesM (fun r : (Value × Option ε) × List β => r.1.2 = none →
      ∃ o, Rewrites ok [] tree o ∧ r.1.1 = o.getD .null ∧
        r.2 = s ++ notesOf note (leaves [] tree))
      ((walk visit tree).run s) := by
  simp only [walk, StateT.run_bind]
  refine SatisfiesM.bind (walkNode_rewrites hvisit [] tree ht s) ?_
  rintro ⟨⟨tree', answer⟩, s'⟩ h
  dsimp only at h
  cases answer with
  | error e => exact SatisfiesM.pure fun h => by cases h
  | ok a =>
    obtain ⟨hrw, hs⟩ := h a rfl
    exact SatisfiesM.pure fun _ => ⟨a.outcome tree', hrw, settleItem_eq tree' a, hs⟩

end Walk

end Value

end LayeredConfig
