/-! Decimal numerals as the readers of counts and indices take them: a run of
ASCII digits, leading zeros allowed, read by accumulating `10 * acc + digit`.
Every non-empty run of digits writes its value after some leading zeros, and the
value of such a run is the number it writes; so a count or an index read from
text is the number whose decimal form, `toString`, the text ends with. -/

namespace LayeredConfig

/-- `ds` writes `n` in decimal, after any number of leading zeros. -/
def Numeral (ds : List Char) (n : Nat) : Prop :=
  ∃ z, ds = List.replicate z '0' ++ Nat.toDigits 10 n

theorem digit_lt_ten {d : Char} (hd : d.isDigit) : d.toNat - 48 < 10 := by
  have h := Char.isDigit_iff_toNat.1 hd
  simp only [Char.reduceToNat] at h
  omega

theorem toDigits_digit {d : Char} (hd : d.isDigit) : Nat.toDigits 10 (d.toNat - 48) = [d] := by
  have key : ∀ k, k < 10 → Nat.digitChar k = Char.ofNat (48 + k) := by decide
  have hge := (Char.isDigit_iff_toNat.1 hd).1
  simp only [Char.reduceToNat] at hge
  rw [Nat.toDigits_of_lt_base (digit_lt_ten hd), key _ (digit_lt_ten hd),
    show 48 + (d.toNat - 48) = d.toNat by omega, Char.ofNat_toNat]

theorem foldl_eq_ofDigitChars (ds : List Char) (acc : Nat) :
    ds.foldl (fun acc d => acc * 10 + (d.toNat - 48)) acc = Nat.ofDigitChars 10 ds acc := by
  induction ds generalizing acc with
  | nil => rfl
  | cons d ds ih => rw [List.foldl_cons, ih, Nat.ofDigitChars_cons, Nat.mul_comm]; rfl

theorem Numeral.ofDigitChars {ds : List Char} {n : Nat} (h : Numeral ds n) :
    Nat.ofDigitChars 10 ds 0 = n := by
  obtain ⟨z, rfl⟩ := h
  simp [Nat.ofDigitChars_append]

theorem Numeral.ne_nil {ds : List Char} {n : Nat} (h : Numeral ds n) : ds ≠ [] := by
  obtain ⟨z, rfl⟩ := h
  simp

theorem Numeral.isDigit {ds : List Char} {n : Nat} (h : Numeral ds n) : ∀ c ∈ ds, c.isDigit := by
  obtain ⟨z, rfl⟩ := h
  intro c hc
  rcases List.mem_append.1 hc with hc | hc
  · rw [List.eq_of_mem_replicate hc]; rfl
  · exact Nat.isDigit_of_mem_toDigits (by decide) (by decide) hc

theorem Numeral.append_digit {ds : List Char} {n : Nat} (h : Numeral ds n) {d : Char}
    (hd : d.isDigit) : Numeral (ds ++ [d]) (10 * n + (d.toNat - 48)) := by
  obtain ⟨z, rfl⟩ := h
  rcases Nat.eq_zero_or_pos n with rfl | hn
  · refine ⟨z + 1, ?_⟩
    rw [Nat.mul_zero, Nat.zero_add, toDigits_digit hd, Nat.toDigits_zero, List.replicate_succ',
      List.append_assoc]
  · refine ⟨z, ?_⟩
    rw [← Nat.toDigits_append_toDigits (by decide) hn (digit_lt_ten hd), toDigits_digit hd,
      List.append_assoc]

/-- Every non-empty run of ASCII digits writes its value. -/
theorem numeral_ofDigitChars {ds : List Char} (hne : ds ≠ []) (hdigits : ∀ c ∈ ds, c.isDigit) :
    Numeral ds (Nat.ofDigitChars 10 ds 0) := by
  suffices h : ∀ rs : List Char, rs ≠ [] → (∀ c ∈ rs, c.isDigit) →
      Numeral rs.reverse (Nat.ofDigitChars 10 rs.reverse 0) by
    simpa using h ds.reverse (by simpa using hne) (by simpa using hdigits)
  intro rs
  induction rs with
  | nil => intro h; exact absurd rfl h
  | cons d rs ih =>
    intro _ hdigits
    have hd := hdigits d List.mem_cons_self
    have hvalue : Nat.ofDigitChars 10 (rs.reverse ++ [d]) 0 =
        10 * Nat.ofDigitChars 10 rs.reverse 0 + (d.toNat - 48) := by
      simp [Nat.ofDigitChars_append, Nat.ofDigitChars_cons]
    rw [List.reverse_cons, hvalue]
    rcases rs with _ | ⟨r, rs⟩
    · exact ⟨0, by simpa using (toDigits_digit hd).symm⟩
    · exact (ih (by simp) fun c hc => hdigits c (List.mem_cons_of_mem d hc)).append_digit hd

end LayeredConfig
