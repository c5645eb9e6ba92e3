import LayeredConfig.Proofs.References
import LayeredConfig.Proofs.Numerals

/-! Dotted references and the paths they spell. A path whose keys hold neither a
dot nor a bracket can be written with dots only, `d.1.name`, or with its indices
in brackets, `d[1].name`. Written with dots, the reference is cut back into the
path's steps exactly; an index, written in decimal, is read back as itself in
an array and as a key in an object, so the lookup follows the path wherever the
path leads.

Written with brackets, each text between two dots is a key followed by the
bracket groups of the indices after it. A bracket that opens a part starts no
token for the text before it, so an empty key right before an index is lost:
`a.[0]` is read as `a`, `0`, while `a..0` is `a`, the empty key, `0`. Without
such a pair the two spellings give the same tokens and the same lookups. -/

namespace LayeredConfig

namespace Step

/-- A step as a dotted reference writes it: a key as it is, an index in decimal. -/
def text : Step → String
  | .key k => k
  | .index i => toString i

/-- A step written after another in bracket style: `.key` or `[index]`. -/
def bracketed : Step → String
  | .key k => "." ++ k
  | .index i => "[" ++ toString i ++ "]"

end Step

namespace KeyPath

/-- A path written with dots only, such as `d.1.name`. -/
def dotted (p : KeyPath) : String := ".".intercalate (p.map Step.text)

/-- A path written with its indices in brackets, such as `d[1].name`; a first key
stands bare. -/
def bracketed : KeyPath → String
  | .key k :: rest => k ++ String.join (rest.map Step.bracketed)
  | p => String.join (p.map Step.bracketed)

end KeyPath

namespace Reference

/-! ### Tokens -/

/-- The bracket groups `[i]` of a run of indices. -/
def indexBrackets (is : List Nat) : List Char :=
  is.flatMap fun i => '[' :: (Nat.toDigits 10 i ++ [']'])

theorem tokens_ofList (cs : List Char) :
    tokens (String.ofList cs) = (cs.splitOn '.').flatMap partTokens := by
  rw [tokens, String.toList_ofList]

theorem tokens_append_dot (x y : List Char) :
    tokens (String.ofList (x ++ '.' :: y)) = tokens (String.ofList x) ++ tokens (String.ofList y) := by
  rw [tokens_ofList, tokens_ofList, tokens_ofList, List.splitOn_append_cons_self, List.flatMap_append]

theorem tokens_of_dot_not_mem {x : List Char} (h : '.' ∉ x) :
    tokens (String.ofList x) = partTokens x := by
  rw [tokens_ofList, List.splitOn_eq_singleton h]
  simp

theorem partTokens_of_bracket_not_mem {x : List Char} (h : '[' ∉ x) :
    partTokens x = [String.ofList x] := by
  simp [partTokens, List.idxOf?_eq_none_iff.2 h]

theorem toDigits_not_mem {c : Char} (hc : c.isDigit = false) (i : Nat) :
    c ∉ Nat.toDigits 10 i := fun h =>
  absurd (Nat.isDigit_of_mem_toDigits (by decide) (by decide) h) (by simp [hc])

theorem idxOf?_append_cons {c : Char} {x : List Char} (hx : c ∉ x) (y : List Char) :
    (x ++ c :: y).idxOf? c = some x.length := by
  induction x with
  | nil => simp [List.idxOf?_cons]
  | cons d x ih =>
    have hd : d ≠ c := fun e => hx (e ▸ List.mem_cons_self)
    rw [List.cons_append, List.idxOf?_cons, ih fun h => hx (List.mem_cons_of_mem d h)]
    simp [hd]

theorem dot_not_mem_indexBrackets (is : List Nat) : '.' ∉ indexBrackets is := by
  simp only [indexBrackets, List.mem_flatMap, List.mem_cons, List.mem_append, not_exists, not_and]
  intro i _
  simp [toDigits_not_mem (c := '.') rfl i]

theorem indexBrackets_cons (i : Nat) (is : List Nat) :
    indexBrackets (i :: is) = '[' :: (Nat.toDigits 10 i ++ ']' :: indexBrackets is) := by
  simp [indexBrackets]

theorem bracketTokens_indexBrackets :
    ∀ (is : List Nat) (fuel : Nat), is.length < fuel →
      bracketTokens fuel (indexBrackets is) = is.map toString
  | [], fuel, _ => by cases fuel <;> rfl
  | i :: is, fuel + 1, hfuel => by
    have hclose := idxOf?_append_cons (toDigits_not_mem (c := ']') rfl i) (indexBrackets is)
    rw [indexBrackets_cons]
    have hdrop : List.drop ((Nat.toDigits 10 i).length + 1) (Nat.toDigits 10 i ++ ']' :: indexBrackets is) =
        indexBrackets is := by simp [List.drop_append]
    simp only [bracketTokens, hclose, List.take_left, hdrop]
    rw [bracketTokens_indexBrackets is fuel (by simp at hfuel; omega)]
    simp [Nat.repr_eq_ofList_toDigits]

theorem length_le_indexBrackets (is : List Nat) : is.length ≤ (indexBrackets is).length := by
  induction is with
  | nil => simp [indexBrackets]
  | cons i is ih =>
    simp only [indexBrackets, List.flatMap_cons, List.length_append, List.length_cons] at ih ⊢
    omega

/-- A part is a key followed by bracket groups: the key is a token unless it is
empty and brackets follow, then each index is one. -/
theorem partTokens_key_indexBrackets {k : List Char} (hk : '[' ∉ k) (is : List Nat) :
    partTokens (k ++ indexBrackets is) =
      (if k = [] ∧ is ≠ [] then [] else [String.ofList k]) ++ is.map toString := by
  have hfuel : is.length < (k ++ indexBrackets is).length + 1 := by
    have := length_le_indexBrackets is
    simp only [List.length_append]
    omega
  cases is with
  | nil => simp [indexBrackets, partTokens_of_bracket_not_mem hk]
  | cons i is =>
    have hopen : (k ++ indexBrackets (i :: is)).idxOf? '[' = some k.length := by
      simpa [indexBrackets] using idxOf?_append_cons hk
        ((Nat.toDigits 10 i ++ [']']) ++ indexBrackets is)
    cases k with
    | nil =>
      simp only [List.nil_append] at hopen hfuel ⊢
      simp [partTokens, hopen, bracketTokens_indexBrackets _ _ hfuel]
    | cons c k =>
      have hlen : (indexBrackets (i :: is)).length + k.length + 1 + 1 >
          (i :: is).length := by have := length_le_indexBrackets (i :: is); omega
      simp only [List.length_cons, List.cons_append] at hopen
      simp only [partTokens, hopen, List.cons_append, List.take_succ_cons, List.drop_succ_cons,
        List.take_left, List.drop_left]
      rw [bracketTokens_indexBrackets _ _ (by simp at hfuel ⊢; omega)]
      simp

/-- What the keys of a path must avoid for a reference to spell them. -/
def KeysPlain (p : KeyPath) : Prop := ∀ k, Step.key k ∈ p → '.' ∉ k.toList ∧ '[' ∉ k.toList

theorem text_dot_not_mem {p : KeyPath} (hp : KeysPlain p) {s : Step} (hs : s ∈ p) :
    '.' ∉ s.text.toList := by
  cases s with
  | key k => exact (hp k hs).1
  | index i => simpa [Step.text, Nat.repr_eq_ofList_toDigits] using toDigits_not_mem rfl i

theorem text_bracket_not_mem {p : KeyPath} (hp : KeysPlain p) {s : Step} (hs : s ∈ p) :
    '[' ∉ s.text.toList := by
  cases s with
  | key k => exact (hp k hs).2
  | index i => simpa [Step.text, Nat.repr_eq_ofList_toDigits] using toDigits_not_mem rfl i

/-- A path written with dots is read back as its steps' texts. -/
theorem tokens_dotted {p : KeyPath} (hne : p ≠ []) (hp : KeysPlain p) :
    tokens (KeyPath.dotted p) = p.map Step.text := by
  rw [tokens, KeyPath.dotted, String.toList_intercalate, List.map_map,
    show ".".toList = ['.'] from rfl]
  rw [List.splitOn_intercalate '.' (by simpa using fun s hs => text_dot_not_mem hp hs)
    (by simpa using hne)]
  rw [List.flatMap_map]
  conv_rhs => rw [← List.flatMap_pure_eq_map]
  refine List.flatMap_congr fun s hs => ?_
  simp [partTokens_of_bracket_not_mem (text_bracket_not_mem hp hs)]

/-- The text of bracket-style steps, after a part made of a key and bracket
groups: the part's tokens, then one token per step, as long as no empty key
stands right before an index. -/
theorem tokens_key_indexBrackets_join (q : KeyPath) :
    ∀ (k : List Char) (is : List Nat), '.' ∉ k → '[' ∉ k → KeysPlain q →
      (∀ i, ¬ [Step.key "", Step.index i] <:+: q) →
      (k = [] → is = [] → ∀ i q', q ≠ .index i :: q') →
      tokens (String.ofList (k ++ indexBrackets is ++ (String.join (q.map Step.bracketed)).toList)) =
        partTokens (k ++ indexBrackets is) ++ q.map Step.text := by
  induction q with
  | nil =>
    intro k is hdot _ _ _ _
    simp only [List.map_nil, String.join_nil, String.toList_empty, List.append_nil]
    rw [tokens_of_dot_not_mem]
    simpa using ⟨hdot, dot_not_mem_indexBrackets is⟩
  | cons s q ih =>
    intro k is hdot hbracket hkeys hempty hopen
    have hkeys' : KeysPlain q := fun k' hk' => hkeys k' (List.mem_cons_of_mem s hk')
    have hempty' : ∀ i, ¬ [Step.key "", Step.index i] <:+: q := fun i h =>
      hempty i (h.trans (List.suffix_cons s q).isInfix)
    cases s with
    | index i =>
      have hgroup : k ++ indexBrackets is ++ (String.join ((Step.index i :: q).map Step.bracketed)).toList =
          k ++ indexBrackets (is ++ [i]) ++ (String.join (q.map Step.bracketed)).toList := by
        simp [indexBrackets, Step.bracketed, Nat.repr_eq_ofList_toDigits]
      rw [hgroup, ih k (is ++ [i]) hdot hbracket hkeys' hempty' (by simp),
        partTokens_key_indexBrackets hbracket, partTokens_key_indexBrackets hbracket]
      have hnot : ¬ (k = [] ∧ is = []) := fun ⟨hk, his⟩ => hopen hk his i q rfl
      by_cases hk : k = []
      · have his : is ≠ [] := fun his => hnot ⟨hk, his⟩
        simp [hk, his, Step.text]
      · simp [hk, Step.text]
    | key k' =>
      have hk' := hkeys k' List.mem_cons_self
      have hsplit : k ++ indexBrackets is ++ (String.join ((Step.key k' :: q).map Step.bracketed)).toList =
          (k ++ indexBrackets is) ++ '.' :: (k'.toList ++ indexBrackets [] ++
            (String.join (q.map Step.bracketed)).toList) := by
        simp [indexBrackets, Step.bracketed]
      have hopen' : k'.toList = [] → ([] : List Nat) = [] → ∀ i q', q ≠ .index i :: q' := by
        rintro hk'' - i q' rfl
        obtain rfl : k' = "" := String.toList_eq_nil_iff.1 hk''
        exact hempty i (List.prefix_append _ q').isInfix
      rw [hsplit, tokens_append_dot, tokens_of_dot_not_mem (by simpa using ⟨hdot, dot_not_mem_indexBrackets is⟩),
        ih k'.toList [] hk'.1 hk'.2 hkeys' hempty' hopen']
      simp [indexBrackets, partTokens_of_bracket_not_mem hk'.2, Step.text]

/-- A path written with brackets is read back as its steps' texts, unless an
empty key stands right before an index. -/
theorem tokens_bracketed {p : KeyPath} (hne : p ≠ []) (hp : KeysPlain p)
    (hempty : ∀ i, ¬ [Step.key "", Step.index i] <:+: p) :
    tokens (KeyPath.bracketed p) = p.map Step.text := by
  obtain ⟨s, q, rfl⟩ := List.exists_cons_of_ne_nil hne
  have hq : KeysPlain q := fun k hk => hp k (List.mem_cons_of_mem s hk)
  have hempty' : ∀ i, ¬ [Step.key "", Step.index i] <:+: q := fun i h =>
    hempty i (h.trans (List.suffix_cons s q).isInfix)
  cases s with
  | key k =>
    have hk := hp k List.mem_cons_self
    have htext : KeyPath.bracketed (.key k :: q) =
        String.ofList (k.toList ++ indexBrackets [] ++ (String.join (q.map Step.bracketed)).toList) := by
      simp [KeyPath.bracketed, indexBrackets, ← String.toList_inj]
    have hopen : k.toList = [] → ([] : List Nat) = [] → ∀ i q', q ≠ .index i :: q' := by
      rintro hk' - i q' rfl
      obtain rfl : k = "" := String.toList_eq_nil_iff.1 hk'
      exact hempty i (List.prefix_append _ q').isInfix
    rw [htext, tokens_key_indexBrackets_join q k.toList [] hk.1 hk.2 hq hempty' hopen]
    simp [indexBrackets, partTokens_of_bracket_not_mem hk.2, Step.text]
  | index i =>
    have htext : KeyPath.bracketed (.index i :: q) =
        String.ofList ([] ++ indexBrackets [i] ++ (String.join (q.map Step.bracketed)).toList) := by
      simp [KeyPath.bracketed, indexBrackets, Step.bracketed, ← String.toList_inj,
        Nat.repr_eq_ofList_toDigits]
    rw [htext, tokens_key_indexBrackets_join q [] [i] (by simp) (by simp) hq hempty' (by simp),
      partTokens_key_indexBrackets (by simp)]
    simp [Step.text]

/-! ### Lookups -/

theorem index?_toString {i : Nat} (hi : i < Nat.pow 2 64) : index? (toString i) = some i := by
  obtain ⟨d, ds, hds⟩ := List.exists_cons_of_ne_nil (Nat.toDigits_ne_nil (n := i) (b := 10))
  have hdigits : ∀ c ∈ d :: ds, c.isDigit := fun c hc =>
    Nat.isDigit_of_mem_toDigits (by decide) (by decide) (hds ▸ hc)
  have hplus : d ≠ '+' := fun e => absurd (hdigits d List.mem_cons_self) (by simp [e])
  have hvalue : (d :: ds).foldl (fun acc d => acc * 10 + (d.toNat - 48)) 0 = i := by
    rw [foldl_eq_ofDigitChars, ← hds, Nat.ofDigitChars_ten_toDigits]
  simp only [index?, Nat.toString_eq_ofList_toDigits, String.toList_ofList, hds]
  split
  · rename_i heq
    exact absurd (List.cons.inj heq).1 hplus
  · simp [List.all_eq_true.2 hdigits, hvalue, hi]

theorem follow_text {v c : Value} {s : Step} (hs : ∀ i, s = .index i → i < Nat.pow 2 64)
    (h : v.child? s = some c) : follow v s.text = some c := by
  cases v <;> cases s <;> simp only [Value.child?, reduceCtorEq] at h
  case obj.key fields k => exact h
  case arr.index items i =>
    show (index? (toString i)).bind (fun a => items[a]?) = some c
    rw [index?_toString (hs i rfl)]
    exact h

theorem foldlM_follow_texts {p : KeyPath} (hidx : ∀ i, Step.index i ∈ p → i < Nat.pow 2 64) :
    ∀ {v w : Value}, v.get? p = some w → (p.map Step.text).foldlM follow v = some w := by
  induction p with
  | nil => intro v w h; cases h; rfl
  | cons s p ih =>
    intro v w h
    rw [Value.get?_cons] at h
    obtain ⟨c, hc, hw⟩ := Option.bind_eq_some_iff.1 h
    have hs : ∀ i, s = .index i → i < Nat.pow 2 64 := fun i e => hidx i (e ▸ List.mem_cons_self)
    simp only [List.map_cons, List.foldlM_cons, follow_text hs hc]
    exact ih (fun i hi => hidx i (List.mem_cons_of_mem s hi)) hw

theorem tokens_empty : tokens "" = [""] := rfl

/-- A reference read as the texts of a path other than the single empty key is
not empty, so its lookup follows those texts. -/
theorem lookup_eq_foldlM_texts (t : Value) {r : String} {p : KeyPath} (hroot : p ≠ [.key ""])
    (h : tokens r = p.map Step.text) : t.lookup r = (p.map Step.text).foldlM follow t := by
  have hr : r ≠ "" := by
    rintro rfl
    rw [tokens_empty] at h
    obtain ⟨s, rfl, hs⟩ := List.map_eq_singleton_iff.1 h.symm
    cases s with
    | key k => exact hroot (by rw [show k = "" from hs])
    | index i => exact Nat.repr_ne_empty (n := i) hs
  rw [Value.lookup, if_neg (by simpa using hr), h]

end Reference

/-- Dotted references agree with the paths they spell. For a path whose keys
hold neither a dot nor a bracket, other than the single empty key, the dotted
spelling looks up the node at the path wherever there is one (its indices are
below `2 ^ 64`), and the bracket spelling looks up the same as the dotted one
unless an empty key stands right before an index. -/
theorem lookup_dotted_bracketed (t : Value) (p : KeyPath) (hne : p ≠ []) (hroot : p ≠ [.key ""])
    (hkeys : ∀ k, Step.key k ∈ p → '.' ∉ k.toList ∧ '[' ∉ k.toList) :
    ((∀ i, ¬ [Step.key "", Step.index i] <:+: p) →
      t.lookup (KeyPath.dotted p) = t.lookup (KeyPath.bracketed p)) ∧
    ((∀ i, Step.index i ∈ p → i < Nat.pow 2 64) → ∀ v, t.get? p = some v →
      t.lookup (KeyPath.dotted p) = some v ∧
      ((∀ i, ¬ [Step.key "", Step.index i] <:+: p) → t.lookup (KeyPath.bracketed p) = some v)) := by
  have hdotted := Reference.lookup_eq_foldlM_texts t hroot (Reference.tokens_dotted hne hkeys)
  have hbracketed : (∀ i, ¬ [Step.key "", Step.index i] <:+: p) →
      t.lookup (KeyPath.bracketed p) = (p.map Step.text).foldlM Reference.follow t := fun hempty =>
    Reference.lookup_eq_foldlM_texts t hroot (Reference.tokens_bracketed hne hkeys hempty)
  refine ⟨fun hempty => by rw [hdotted, hbracketed hempty], fun hidx v hv => ?_⟩
  have hfollow := Reference.foldlM_follow_texts hidx hv
  exact ⟨hdotted.trans hfollow, fun hempty => (hbracketed hempty).trans hfollow⟩

/-- An element of a list under a key, spelled with dots and with brackets. -/
theorem lookup_dotted_bracketed_item :
    let t : Value := .obj [("d", .arr [.num (.int 1), .num (.int 2), .obj [("name", .str "x")]])]
    let p : KeyPath := [.key "d", .index 2, .key "name"]
    KeyPath.dotted p = "d.2.name" ∧ KeyPath.bracketed p = "d[2].name" ∧
      t.lookup "d.2.name" = some (.str "x") ∧ t.lookup "d[2].name" = some (.str "x") := by
  intro t p
  have hkeys : ∀ k, Step.key k ∈ p → '.' ∉ k.toList ∧ '[' ∉ k.toList := by
    intro k hk
    simp only [p, List.mem_cons, Step.key.injEq, reduceCtorEq, List.not_mem_nil, or_false,
      false_or] at hk
    rcases hk with rfl | rfl <;> decide
  have hidx : ∀ i, Step.index i ∈ p → i < Nat.pow 2 64 := by
    intro i hi
    simp only [p, List.mem_cons, Step.index.injEq, reduceCtorEq, List.not_mem_nil, or_false,
      false_or] at hi
    subst hi
    decide
  have hempty : ∀ i, ¬ [Step.key "", Step.index i] <:+: p := fun i h =>
    absurd (h.subset List.mem_cons_self) (by decide)
  obtain ⟨-, hfound⟩ := lookup_dotted_bracketed t p (by decide) (by decide) hkeys
  obtain ⟨hd, hb⟩ := hfound hidx (.str "x") rfl
  exact ⟨by decide, by decide, hd, hb hempty⟩

/-- An empty key right before an index is lost in the bracket spelling: `a.[0]`
is read as `a`, `0`. -/
theorem lookup_bracketed_drops_empty_key :
    let t : Value := .obj [("a", .obj [("", .arr [.num (.int 5)])])]
    let p : KeyPath := [.key "a", .key "", .index 0]
    KeyPath.dotted p = "a..0" ∧ KeyPath.bracketed p = "a.[0]" ∧ t.get? p = some (.num (.int 5)) ∧
      t.lookup (KeyPath.dotted p) = some (.num (.int 5)) ∧ t.lookup (KeyPath.bracketed p) = none :=
  ⟨by decide, by decide, rfl, rfl, rfl⟩

end LayeredConfig
