import LayeredConfig.Directive.Basic
import LayeredConfig.Proofs.Numerals

/-! The grammar of directives. A leaf is a directive exactly when it has a colon
and the text before its first colon is a tag: one of the eleven plain tags, or
`SFILE` followed by a decimal count below `2 ^ 64`, leading zeros allowed. The
operator is the tag's and the payload is everything after that colon. No tag
holds a colon, so a tag the reader tries matches exactly when it is the text
before the first colon; no plain tag starts with `S`, so the plain tags and the
secret files never overlap.

An operator's name is a tag for it, so a name, a colon and any payload read back
as that operator and payload. Conversely a leaf is its operator's name, a colon
and its payload, except for a secret file whose count was written with leading
zeros: the operator keeps the number, and its name does not show the zeros. -/

namespace LayeredConfig

namespace Directive

/-- The plain tags and the operators they name. -/
def plainTable : List (String × Operator) :=
  [("RAW", .raw), ("HEXSTR", .hexText), ("B64STR", .base64Text), ("ENV", .env), ("FILE", .file),
    ("OBF", .obfuscated), ("BOOL", .bool), ("INT", .int 10), ("INT16", .int 16), ("INT8", .int 8),
    ("CONFIG", .config)]

/-- A tag of a directive and the operator it names: a plain tag, or `SFILE`
followed by a decimal count below `2 ^ 64`. -/
inductive Tag : List Char → Operator → Prop
  | plain {tag : String} {op : Operator} : (tag, op) ∈ plainTable → Tag tag.toList op
  | secretFile {ds : List Char} {n : Nat} : Numeral ds n → n < Nat.pow 2 64 →
      Tag ("SFILE".toList ++ ds) (.secretFile n)

/-- A run of digits is read as a count exactly when it writes one below `2 ^ 64`. -/
theorem count?_eq_some_iff {ds : List Char} (hdigits : ∀ c ∈ ds, c.isDigit) {n : Nat} :
    count? ds = some n ↔ Numeral ds n ∧ n < Nat.pow 2 64 := by
  rw [count?, foldl_eq_ofDigitChars]
  constructor
  · intro h
    split at h
    · cases h
    · rename_i hcond
      cases h
      simp only [Bool.or_eq_true, List.isEmpty_iff, decide_eq_true_eq, not_or, Nat.not_le] at hcond
      exact ⟨numeral_ofDigitChars hcond.1 hdigits, hcond.2⟩
  · rintro ⟨hdec, hlt⟩
    rw [hdec.ofDigitChars, if_neg]
    simp [hdec.ne_nil, hlt]

/-! ### Tags -/

theorem plainTags_eq : Operator.plainTags = plainTable.map Prod.fst := rfl

theorem ofTag?_none_eq_some_iff {tag : String} {op : Operator} :
    Operator.ofTag? tag none = some op ↔ (tag, op) ∈ plainTable := by
  have hrow : ∀ p ∈ plainTable, Operator.ofTag? p.1 none = some p.2 := by decide
  refine ⟨fun h => ?_, fun h => hrow _ h⟩
  by_cases ht : tag ∈ Operator.plainTags
  · obtain ⟨p, hp, rfl⟩ := List.mem_map.1 (plainTags_eq ▸ ht)
    rw [hrow p hp, Option.some.injEq] at h
    exact h ▸ hp
  · simp only [Operator.plainTags, List.mem_cons, List.not_mem_nil, or_false, not_or] at ht
    simp [Operator.ofTag?, ht] at h

theorem ofTag?_secretFile (digits : String) (n : Nat) :
    Operator.ofTag? ("SFILE" ++ digits) (some n) = some (.secretFile n) := by
  simp [Operator.ofTag?]

theorem name_of_mem_plainTable {tag : String} {op : Operator} (h : (tag, op) ∈ plainTable) :
    op.name = tag :=
  (by decide : ∀ p ∈ plainTable, p.2.name = p.1) _ h

theorem head?_of_mem_plainTable {tag : String} {op : Operator} (h : (tag, op) ∈ plainTable) :
    tag.toList.head? ≠ some 'S' :=
  (by decide : ∀ p ∈ plainTable, p.1.toList.head? ≠ some 'S') _ h

theorem colon_not_mem_of_mem_plainTable {tag : String} {op : Operator} (h : (tag, op) ∈ plainTable) :
    ':' ∉ tag.toList :=
  (by decide : ∀ p ∈ plainTable, ':' ∉ p.1.toList) _ h

theorem tag_iff {t : List Char} {op : Operator} : Tag t op ↔
    (∃ tag, t = tag.toList ∧ (tag, op) ∈ plainTable) ∨
    ∃ ds n, t = "SFILE".toList ++ ds ∧ Numeral ds n ∧ n < Nat.pow 2 64 ∧ op = .secretFile n := by
  constructor
  · rintro (⟨hmem⟩ | ⟨hdec, hlt⟩)
    · exact .inl ⟨_, rfl, hmem⟩
    · exact .inr ⟨_, _, rfl, hdec, hlt, rfl⟩
  · rintro (⟨tag, rfl, hmem⟩ | ⟨ds, n, rfl, hdec, hlt, rfl⟩)
    · exact .plain hmem
    · exact .secretFile hdec hlt

theorem tag_secretFile_iff {ds : List Char} {op : Operator} :
    Tag ("SFILE".toList ++ ds) op ↔ ∃ n, Numeral ds n ∧ n < Nat.pow 2 64 ∧ op = .secretFile n := by
  rw [tag_iff]
  constructor
  · rintro (⟨tag, htag, hmem⟩ | ⟨ds', n, hds, hdec, hlt, rfl⟩)
    · exact absurd (by rw [← htag]; rfl) (head?_of_mem_plainTable hmem)
    · exact ⟨n, List.append_cancel_left hds ▸ hdec, hlt, rfl⟩
  · rintro ⟨n, hdec, hlt, rfl⟩
    exact .inr ⟨ds, n, rfl, hdec, hlt, rfl⟩

theorem Tag.colon_not_mem {t : List Char} {op : Operator} (h : Tag t op) : ':' ∉ t := by
  rcases tag_iff.1 h with ⟨tag, rfl, hmem⟩ | ⟨ds, n, rfl, hdec, -, -⟩
  · exact colon_not_mem_of_mem_plainTable hmem
  · intro hc
    rcases List.mem_append.1 hc with hc | hc
    · revert hc; decide
    · exact absurd (hdec.isDigit ':' hc) (by decide)

/-- The name of every operator a tag gives, with a count below `2 ^ 64`, is a tag for it. -/
theorem tag_name_of_ofTag? {tag : String} {count : Option Nat} {op : Operator}
    (hcount : ∀ n ∈ count, n < Nat.pow 2 64) (h : Operator.ofTag? tag count = some op) :
    Tag op.name.toList op := by
  cases count with
  | none =>
    have hmem := ofTag?_none_eq_some_iff.1 h
    rw [name_of_mem_plainTable hmem]
    exact .plain hmem
  | some n =>
    simp only [Operator.ofTag?] at h
    split at h
    · cases h
      simp only [Operator.name, String.toList_append, Nat.toString_eq_ofList_toDigits,
        String.toList_ofList]
      exact .secretFile ⟨0, rfl⟩ (hcount n rfl)
    · cases h

/-! ### Cutting a leaf at its first colon -/

theorem eq_of_append_cons_eq {α : Type} {c : α} :
    ∀ {a b x y : List α}, c ∉ a → c ∉ b → a ++ c :: x = b ++ c :: y → a = b
  | [], [], _, _, _, _, _ => rfl
  | [], _ :: _, _, _, _, hb, h => by
    simp only [List.nil_append, List.cons_append, List.cons.injEq] at h
    exact absurd (h.1 ▸ List.mem_cons_self) hb
  | _ :: _, [], _, _, ha, _, h => by
    simp only [List.nil_append, List.cons_append, List.cons.injEq] at h
    exact absurd (h.1 ▸ List.mem_cons_self) ha
  | _ :: _, _ :: _, _, _, ha, hb, h => by
    simp only [List.cons_append, List.cons.injEq] at h
    rw [h.1, eq_of_append_cons_eq (fun h' => ha (List.mem_cons_of_mem _ h'))
      (fun h' => hb (List.mem_cons_of_mem _ h')) h.2]

theorem exists_first_colon {cs : List Char} (hc : ':' ∈ cs) :
    ∃ tag rest, cs = tag ++ ':' :: rest ∧ ':' ∉ tag := by
  induction cs with
  | nil => cases hc
  | cons c cs ih =>
    by_cases hcolon : c = ':'
    · exact ⟨[], cs, by rw [hcolon]; rfl, List.not_mem_nil⟩
    · obtain ⟨tag, rest, rfl, htag⟩ := ih ((List.mem_cons.1 hc).resolve_left (Ne.symm hcolon))
      refine ⟨c :: tag, rest, rfl, ?_⟩
      rintro (_ | ⟨_, h⟩)
      · exact hcolon rfl
      · exact htag h

/-- A tag and a colon start a leaf exactly when the tag is the text before the
leaf's first colon. -/
theorem take_eq_append_colon_iff {h t : List Char} (rest : List Char) (hh : ':' ∉ h)
    (ht : ':' ∉ t) : (h ++ ':' :: rest).take (t.length + 1) = t ++ [':'] ↔ h = t := by
  constructor
  · intro htake
    have hsplit := List.take_append_drop (t.length + 1) (h ++ ':' :: rest)
    rw [htake, List.append_assoc, List.singleton_append] at hsplit
    exact eq_of_append_cons_eq hh ht hsplit.symm
  · rintro rfl
    simp [List.take_append, List.take_of_length_le (Nat.le_succ h.length)]

/-- A text without a colon starts a leaf exactly when it starts the text before
the leaf's first colon. -/
theorem prefix_append_colon_iff {p h : List Char} (rest : List Char) (hp : ':' ∉ p) :
    p <+: h ++ ':' :: rest ↔ p <+: h := by
  induction p generalizing h with
  | nil => simp
  | cons a p ih =>
    cases h with
    | nil =>
      have ha : a ≠ ':' := fun e => hp (e ▸ List.mem_cons_self)
      simp [List.cons_prefix_cons, ha]
    | cons b h =>
      simp only [List.cons_append, List.cons_prefix_cons]
      rw [ih fun hc => hp (List.mem_cons_of_mem a hc)]

/-- Trying tags in turn against a leaf finds the text before its first colon, if
that is one of them. -/
theorem findSome?_tags {α : Type} {h : List Char} (rest : List Char) (hh : ':' ∉ h)
    (g : String → Option α) : ∀ tags : List String, (∀ t ∈ tags, ':' ∉ t.toList) →
      tags.findSome? (fun tag => if (h ++ ':' :: rest).take (tag.toList.length + 1) ==
        tag.toList ++ [':'] then g tag else none) =
        if String.ofList h ∈ tags then g (String.ofList h) else none
  | [], _ => rfl
  | t :: tags, htags => by
    have ht := htags t List.mem_cons_self
    rw [List.findSome?_cons,
      findSome?_tags rest hh g tags fun t' ht' => htags t' (List.mem_cons_of_mem t ht')]
    by_cases hth : h = t.toList
    · subst hth
      simp only [beq_iff_eq, take_eq_append_colon_iff rest hh ht, if_true, String.ofList_toList,
        List.mem_cons_self]
      cases g t <;> simp
    · have hne : String.ofList h ≠ t := fun e => hth (by rw [← e, String.toList_ofList])
      simp [take_eq_append_colon_iff rest hh ht, hth, hne]

theorem takeWhile_isDigit_append {ds : List Char} (hds : ∀ c ∈ ds, c.isDigit) (rest : List Char) :
    (ds ++ ':' :: rest).takeWhile Char.isDigit = ds := by
  rw [List.takeWhile_append_of_pos hds]
  simp

theorem drop_takeWhile_isDigit {ds : List Char} (hcolon : ':' ∉ ds) (hds : ¬ ∀ c ∈ ds, c.isDigit)
    (rest : List Char) : ∃ c r, c ≠ ':' ∧
      (ds ++ ':' :: rest).drop ((ds ++ ':' :: rest).takeWhile Char.isDigit).length = c :: r := by
  induction ds with
  | nil => simp at hds
  | cons d ds ih =>
    by_cases hd : d.isDigit
    · have hds' : ¬ ∀ c ∈ ds, c.isDigit := fun h' => hds fun c hc => by
        rcases List.mem_cons.1 hc with rfl | hc
        · exact hd
        · exact h' c hc
      obtain ⟨c, r, hc, hdrop⟩ := ih (fun h' => hcolon (List.mem_cons_of_mem d h')) hds'
      exact ⟨c, r, hc, by simpa [hd] using hdrop⟩
    · exact ⟨d, ds ++ ':' :: rest, fun e => hcolon (e ▸ List.mem_cons_self), by simp [hd]⟩

/-! ### Reading a leaf -/

theorem parse_of_colon_not_mem {leaf : String} (hc : ':' ∉ leaf.toList) : parse leaf = none := by
  simp only [parse]
  rw [List.findSome?_eq_none_iff.2 ?plain]
  case plain =>
    intro tag _
    split
    · rename_i htake
      have hmem : ':' ∈ List.take (tag.toList.length + 1) leaf.toList := by
        rw [beq_iff_eq.1 htake]; simp
      exact absurd (List.mem_of_mem_take hmem) hc
    · rfl
  simp only
  split
  · split
    · rename_i hdrop
      exact absurd (List.mem_of_mem_drop (List.mem_of_mem_drop (hdrop ▸ List.mem_cons_self))) hc
    · rfl
  · rfl

/-- The plain tags tried in turn, as `parse` first reads a leaf. -/
def plainAttempt (cs : List Char) : Option Directive :=
  Operator.plainTags.findSome? fun tag =>
    if cs.take (tag.toList.length + 1) == tag.toList ++ [':'] then
      (Operator.ofTag? tag none).map fun op => ⟨op, String.ofList (cs.drop (tag.toList.length + 1))⟩
    else none

/-- The reading of a leaf as a secret file, which `parse` tries when no plain tag
matches. -/
def secretAttempt (cs : List Char) : Option Directive :=
  if cs.take 5 == "SFILE".toList then
    let rest := cs.drop 5
    let digits := rest.takeWhile Char.isDigit
    match rest.drop digits.length with
    | ':' :: payload =>
      (count? digits).bind fun n =>
        (Operator.ofTag? ("SFILE" ++ String.ofList digits) (some n)).map fun op =>
          ⟨op, String.ofList payload⟩
    | _ => none
  else none

theorem parse_eq_or (leaf : String) :
    parse leaf = (plainAttempt leaf.toList).or (secretAttempt leaf.toList) := by
  cases hp : plainAttempt leaf.toList with
  | some d =>
    simp only [plainAttempt] at hp
    simp only [parse, hp, Option.some_or]
  | none =>
    simp only [plainAttempt] at hp
    simp only [parse, hp, Option.none_or]
    rfl

/-- Cut at its first colon, a leaf is read by the plain tags as the operator of
the text before the colon, if it has one, and the rest of the leaf. -/
theorem plainAttempt_split {h : List Char} (rest : List Char) (hh : ':' ∉ h) :
    plainAttempt (h ++ ':' :: rest) =
      (Operator.ofTag? (String.ofList h) none).map fun op => ⟨op, String.ofList rest⟩ := by
  rw [plainAttempt, findSome?_tags rest hh _ Operator.plainTags (by decide)]
  split
  · simp
  · rename_i hnot
    cases hop : Operator.ofTag? (String.ofList h) none with
    | none => rfl
    | some op =>
      rw [plainTags_eq] at hnot
      exact absurd (List.mem_map_of_mem (f := Prod.fst) (ofTag?_none_eq_some_iff.1 hop)) hnot

/-- Read as a secret file, a leaf `SFILE`, a count, a colon and a payload gives
the count's operator when it is a count below `2 ^ 64`, and the payload. -/
theorem secretAttempt_secretFile {ds : List Char} (rest : List Char) (hds : ':' ∉ ds) {d : Directive} :
    secretAttempt (("SFILE".toList ++ ds) ++ ':' :: rest) = some d ↔
      (∃ n, Numeral ds n ∧ n < Nat.pow 2 64 ∧ d.operator = .secretFile n) ∧
        d.payload = String.ofList rest := by
  have htake : List.take 5 (("SFILE".toList ++ ds) ++ ':' :: rest) = "SFILE".toList := by
    simp [List.take_append]
  have hdrop : List.drop 5 (("SFILE".toList ++ ds) ++ ':' :: rest) = ds ++ ':' :: rest := by
    simp [List.drop_append]
  simp only [secretAttempt, htake, hdrop, beq_self_eq_true, if_true]
  by_cases hall : ∀ c ∈ ds, c.isDigit
  · rw [takeWhile_isDigit_append hall rest]
    simp only [List.drop_left, ofTag?_secretFile, Option.map_some]
    constructor
    · intro hbind
      obtain ⟨n, hn, hd⟩ := Option.bind_eq_some_iff.1 hbind
      cases hd
      obtain ⟨hdec, hlt⟩ := (count?_eq_some_iff hall).1 hn
      exact ⟨⟨n, hdec, hlt, rfl⟩, rfl⟩
    · rintro ⟨⟨n, hdec, hlt, hop⟩, hpay⟩
      rw [(count?_eq_some_iff hall).2 ⟨hdec, hlt⟩]
      cases d
      simp_all
  · obtain ⟨c, r, hc, hdrop'⟩ := drop_takeWhile_isDigit hds hall rest
    rw [hdrop']
    split
    · rename_i heq
      exact absurd (List.cons.inj heq).1 hc
    · constructor
      · intro h; cases h
      · rintro ⟨⟨n, hdec, -, -⟩, -⟩
        exact absurd hdec.isDigit hall

/-- A leaf that does not start with `SFILE` is no secret file. -/
theorem secretAttempt_of_not_sfile {h : List Char} (rest : List Char) (hpre : ¬ "SFILE".toList <+: h) :
    secretAttempt (h ++ ':' :: rest) = none := by
  have hnot : ¬ List.take 5 (h ++ ':' :: rest) = "SFILE".toList := fun ht =>
    hpre ((prefix_append_colon_iff rest (by decide)).1 (List.prefix_iff_eq_take.2 ht.symm))
  simp only [secretAttempt, beq_iff_eq, hnot, if_false]

/-- Cut at its first colon, a leaf is a directive exactly when the text before
the colon is a tag; the operator is the tag's and the payload the rest. -/
theorem parse_eq_some_iff_of_split {leaf : String} {h rest : List Char}
    (hleaf : leaf.toList = h ++ ':' :: rest) (hh : ':' ∉ h) {d : Directive} :
    parse leaf = some d ↔ Tag h d.operator ∧ d.payload = String.ofList rest := by
  rw [parse_eq_or, hleaf, plainAttempt_split rest hh]
  cases hop : Operator.ofTag? (String.ofList h) none with
  | some op =>
    have hmem := ofTag?_none_eq_some_iff.1 hop
    simp only [Option.map_some, Option.some_or]
    constructor
    · rintro ⟨⟩
      exact ⟨by simpa using Tag.plain hmem, rfl⟩
    · rintro ⟨htag, hpay⟩
      rcases tag_iff.1 htag with ⟨tag, rfl, hmem'⟩ | ⟨ds, n, rfl, -, -, -⟩
      · rw [String.ofList_toList, ofTag?_none_eq_some_iff.2 hmem'] at hop
        cases hop
        rw [← hpay]
      · exact absurd (by rw [String.toList_ofList]; rfl) (head?_of_mem_plainTable hmem)
  | none =>
    rw [Option.map_none, Option.none_or]
    by_cases hpre : "SFILE".toList <+: h
    · obtain ⟨ds, rfl⟩ := hpre
      rw [secretAttempt_secretFile rest fun hc => hh (List.mem_append_right _ hc), tag_secretFile_iff]
    · rw [secretAttempt_of_not_sfile rest hpre]
      constructor
      · intro h; cases h
      · rintro ⟨htag, -⟩
        rcases tag_iff.1 htag with ⟨tag, rfl, hmem⟩ | ⟨ds, n, rfl, -, -, -⟩
        · rw [String.ofList_toList, ofTag?_none_eq_some_iff.2 hmem] at hop
          cases hop
        · exact absurd (List.prefix_append _ _) hpre

theorem exists_tag_of_parse_eq_some {leaf : String} {d : Directive} (h : parse leaf = some d) :
    ∃ tag rest, leaf.toList = tag ++ ':' :: rest ∧ ':' ∉ tag ∧ Tag tag d.operator ∧
      d.payload = String.ofList rest := by
  by_cases hc : ':' ∈ leaf.toList
  · obtain ⟨tag, rest, hsplit, htag⟩ := exists_first_colon hc
    exact ⟨tag, rest, hsplit, htag, (parse_eq_some_iff_of_split hsplit htag).1 h⟩
  · rw [parse_of_colon_not_mem hc] at h
    cases h

theorem parse_eq_some_of_tag {leaf : String} {tag rest : List Char} {op : Operator}
    (hleaf : leaf.toList = tag ++ ':' :: rest) (htag : Tag tag op) :
    parse leaf = some ⟨op, String.ofList rest⟩ :=
  (parse_eq_some_iff_of_split hleaf htag.colon_not_mem).2 ⟨htag, rfl⟩

/-- A plain tag and a colon before any payload make a directive of the tag's operator. -/
theorem parse_plain {tag : String} {op : Operator} (h : (tag, op) ∈ plainTable) (payload : String) :
    parse (tag ++ ":" ++ payload) = some ⟨op, payload⟩ := by
  have hleaf : (tag ++ ":" ++ payload).toList = tag.toList ++ ':' :: payload.toList := by simp
  simpa using parse_eq_some_of_tag hleaf (.plain h)

/-- Directives have this grammar: a leaf is one exactly when the text before its
first colon is a tag, and then the operator is the tag's and the payload is the
rest of the leaf. Every tag the grammar admits names an operator. -/
theorem parse_eq_some_iff_tag (leaf : String) (d : Directive) :
    (parse leaf = some d ↔ ∃ tag rest, leaf.toList = tag ++ ':' :: rest ∧ ':' ∉ tag ∧
      Tag tag d.operator ∧ d.payload = String.ofList rest) ∧
    (∀ tag op, (tag, op) ∈ plainTable → Operator.ofTag? tag none = some op) ∧
    ∀ digits n, Operator.ofTag? ("SFILE" ++ digits) (some n) = some (.secretFile n) := by
  refine ⟨⟨exists_tag_of_parse_eq_some, ?_⟩, fun _ _ => ofTag?_none_eq_some_iff.2,
    ofTag?_secretFile⟩
  rintro ⟨tag, rest, hsplit, hcolon, htag, hpayload⟩
  exact (parse_eq_some_iff_of_split hsplit hcolon).2 ⟨htag, hpayload⟩

example : parse "SFILE:/tmp/x" = none := by decide
example : parse "SFILE007:a:b" = some ⟨.secretFile 7, "a:b"⟩ := by decide +kernel

/-! ### Names -/

/-- Operators print as the tags they are read from. An operator's name, a colon
and any payload read back as that operator and payload. A directive leaf is its
operator's name, a colon and its payload, except that a secret file's count may
have been written with leading zeros, which the name does not show. -/
theorem parse_name_round_trip :
    (∀ (tag : String) (count : Option Nat) (op : Operator) (payload : String),
      (∀ n ∈ count, n < Nat.pow 2 64) → Operator.ofTag? tag count = some op →
      parse (op.name ++ ":" ++ payload) = some ⟨op, payload⟩) ∧
    ∀ (leaf : String) (d : Directive), parse leaf = some d →
      leaf = d.operator.name ++ ":" ++ d.payload ∨
      ∃ n z, 0 < z ∧ d.operator = .secretFile n ∧
        leaf = "SFILE" ++ String.ofList (List.replicate z '0') ++ toString n ++ ":" ++ d.payload := by
  refine ⟨fun tag count op payload hcount h => ?_, fun leaf d h => ?_⟩
  · have hleaf : (op.name ++ ":" ++ payload).toList = op.name.toList ++ ':' :: payload.toList := by
      simp
    simpa using parse_eq_some_of_tag hleaf (tag_name_of_ofTag? hcount h)
  · obtain ⟨tag, rest, hleaf, -, htag, hpayload⟩ := exists_tag_of_parse_eq_some h
    rcases tag_iff.1 htag with ⟨tag, rfl, hmem⟩ | ⟨ds, n, rfl, ⟨z, rfl⟩, -, hop⟩
    · left
      rw [← String.toList_inj, hleaf, hpayload, name_of_mem_plainTable hmem]
      simp
    · rcases Nat.eq_zero_or_pos z with rfl | hz
      · left
        rw [← String.toList_inj, hleaf, hpayload, hop]
        simp [Operator.name]
      · right
        refine ⟨n, z, hz, hop, ?_⟩
        rw [← String.toList_inj, hleaf, hpayload]
        simp

/-- A count written with a leading zero reads as the number, whose name drops the zero. -/
theorem parse_leading_zero_not_name :
    parse "SFILE08:p" = some ⟨.secretFile 8, "p"⟩ ∧
      "SFILE08:p" ≠ (Operator.secretFile 8).name ++ ":" ++ "p" := by
  decide +kernel

end Directive

end LayeredConfig
