import LayeredConfig.Proofs.WalkOrder
import LayeredConfig.Directive.Resolve
import LayeredConfig.Host.Machine

/-! What a failed resolution leaves. The first pass of resolving a tree is a
walk, so it dispatches the directives of the leaves in pre-order and stops at
the first that fails; nothing after it is resolved, no reference is filled, and
the tree keeps what the walk made of it: the answers before the failure, less
the removals pending in the objects around the failing leaf. A reference leaf
answers keep, so every `CONFIG:` leaf keeps its text. -/

namespace LayeredConfig

namespace Resolver

open Value

variable {m : Type → Type} [Monad m] [LawfulMonad m] [Host m]

/-- A reference leaf is kept for the second pass. -/
theorem visitLeaf_keeps_config (r : Resolver) (q : KeyPath) (l : String) :
    SatisfiesM (fun res => ∀ a, res = .ok a → (Directive.parse l).map Directive.operator = some .config →
      a = .keep) (r.visitLeaf q l : StateT (List Deferred) m _) := by
  unfold visitLeaf
  cases hp : Directive.parse l with
  | none => exact SatisfiesM.pure fun a ha _ => by cases ha; rfl
  | some d =>
    by_cases hc : d.operator = .config
    · simp only [hc, if_true]
      exact SatisfiesM.bind SatisfiesM.trivial fun _ _ => SatisfiesM.pure fun a ha _ => by cases ha; rfl
    · simp only [hc, if_false]
      exact SatisfiesM.bind SatisfiesM.trivial fun _ _ =>
        SatisfiesM.pure fun a _ hconfig => absurd (by simpa using hconfig) hc

/-- A resolution dispatches the directives of the leaves in pre-order and stops
at the first failure. Then it fills no reference and leaves the tree with the
answers given before the failure, less the removals pending in the objects that
enclose the failing leaf; in particular every `CONFIG:` leaf keeps its text. -/
theorem resolveTree_stops_at_first_failure (r : Resolver) (t : Value) (ht : t.NodupKeys) :
    (r.resolveTree t : m _) = ((visitAll r.visitLeaf (leaves [] t)).run [] >>= fun res =>
      match res.1.2 with
      | some e => pure ((settle (heldAt (leaves [] t) res.1.1) [] t).getD .null, some e)
      | none => pure (((settle (answerAt (leaves [] t) res.1.1) [] t).getD .null).fillDeferred res.2, none)) ∧
    SatisfiesM (fun res : Value × Option ConfigError => res.2.isSome → ∀ q l, (q, l) ∈ leaves [] t →
      (Directive.parse l).map Directive.operator = some .config → res.1.get? q = some (.str l))
      (r.resolveTree t : m _) := by
  have heq : (r.resolveTree t : m _) = ((visitAll r.visitLeaf (leaves [] t)).run [] >>= fun res =>
      match res.1.2 with
      | some e => pure ((settle (heldAt (leaves [] t) res.1.1) [] t).getD .null, some e)
      | none => pure (((settle (answerAt (leaves [] t) res.1.1) [] t).getD .null).fillDeferred res.2, none)) := by
    unfold resolveTree
    rw [walk_eq_visitAll _ t ht, StateT.run_map, bind_map_left]
    congr 1
    funext res
    obtain ⟨⟨answers, failure⟩, noted⟩ := res
    cases failure <;> rfl
  refine ⟨heq, ?_⟩
  rw [heq]
  have hanswers := SatisfiesM_StateT_eq.1
    (visitAll_answerAt (r.visitLeaf : KeyPath → String → StateT (List Deferred) m _)
      (fun q l => visitLeaf_keeps_config r q l) (leaves [] t)) []
  refine SatisfiesM.bind hanswers fun res hres => ?_
  obtain ⟨⟨answers, failure⟩, noted⟩ := res
  cases failure with
  | none => exact SatisfiesM.pure fun h => by cases h
  | some e =>
    refine SatisfiesM.pure fun _ q l hq hconfig => ?_
    obtain ⟨q', hq', hget⟩ := get?_of_mem_leaves [] t ht hq
    rw [List.nil_append] at hq'
    rw [← hq'] at hget
    have hkeep : answerAt (leaves [] t) answers q = .keep := by
      rcases hres q with hkeep | ⟨l', hl', hP⟩
      · exact hkeep
      · obtain ⟨q'', hq'', hget'⟩ := get?_of_mem_leaves [] t ht hl'
        rw [List.nil_append] at hq''
        rw [← hq'', hget] at hget'
        cases hget'
        exact hP hconfig
    have hheld : heldAt (leaves [] t) answers q = .keep := by simp [heldAt, hkeep]
    have hkept := (settle_rewrites (d := heldAt (leaves [] t) answers) [] t).get?_of_kept ht hget
      fun o' ho' => by simpa [hheld, Visit.outcome] using ho'
    cases hs : settle (heldAt (leaves [] t) answers) [] t with
    | none => simp [hs] at hkept
    | some w => simpa [hs] using hkept

/-- An obfuscated value refused while bootstrapping stops the walk at `d`: the
value resolved before stays resolved, the removal of the empty integer at `b`
was pending and is lost, the reference keeps its text and `e` is not resolved. -/
theorem resolveTree_stops_at_first_failure_obfuscated :
    (obj [("a", str "RAW:ok"), ("b", str "INT:"), ("c", str "CONFIG:a"), ("d", str "OBF:x"),
      ("e", str "RAW:later")]).NodupKeys ∧
    ((((⟨.bootstrapping, defaultMaxDepth⟩ : Resolver).resolveTree (obj [("a", str "RAW:ok"), ("b", str "INT:"),
      ("c", str "CONFIG:a"), ("d", str "OBF:x"), ("e", str "RAW:later")]) : StateM Machine _).run
        ⟨.fixed [], .exact [] none [], .pattern [], .pattern []⟩).1 =
      (obj [("a", str "ok"), ("b", str "INT:"), ("c", str "CONFIG:a"), ("d", str "OBF:x"), ("e", str "RAW:later")],
        some (.obfuscatorUnavailable [.key "d"]))) := by
  have ht : (obj [("a", str "RAW:ok"), ("b", str "INT:"), ("c", str "CONFIG:a"), ("d", str "OBF:x"),
      ("e", str "RAW:later")]).NodupKeys := by
    simp [Fields.keys]
  refine ⟨ht, ?_⟩
  rw [(resolveTree_stops_at_first_failure (m := StateM Machine) _ _ ht).1]
  rfl

end Resolver

end LayeredConfig
