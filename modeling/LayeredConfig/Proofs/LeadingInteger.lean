import LayeredConfig.Proofs.IntegerDoubles
import LayeredConfig.Proofs.Nesting

/-! The leading integer of a text, read into a double. Blanks at the start are
skipped, one sign may follow, and in radix 16 a `0x` or `0X`; then the longest
run of digits valid in the radix is accumulated by `acc * radix + digit`, each
step rounded. While the exact value read so far is below `2 ^ 53` every step is
exact, and from then on the double stays at least `2 ^ 53` or becomes infinite
(`Tracks`). So the double is NaN exactly when there are no digits, the exact
signed value when it is below `2 ^ 53`, and of magnitude at least `2 ^ 53`
otherwise (`leadingInteger_cases`).

An integer directive therefore gives an integer only when it is the exact
value, a float only for a whole value of magnitude at least `2 ^ 53`, and fails
when there are no digits or the value overflows; a number it gives, coerced
again, comes back unchanged (`integer_directive_exact`). -/

namespace LayeredConfig

namespace Coerce

open Binary64

/-- The sign of a text's leading integer, and the characters after the sign and,
in radix 16, after a `0x` or `0X`. -/
def signedBody (s : String) (radix : Nat) : Bool × List Char :=
  let cs := s.toList.dropWhile Text.isBlank
  let (negative, cs) :=
    match cs with
    | '-' :: rest => (true, rest)
    | '+' :: rest => (false, rest)
    | _ => (false, cs)
  (negative,
    if radix = 16 then
      match cs with
      | '0' :: 'x' :: rest => rest
      | '0' :: 'X' :: rest => rest
      | _ => cs
    else cs)

/-- The values of the longest run of digits at the start of a text. -/
def digitRun (radix : Nat) (cs : List Char) : List Nat :=
  (cs.takeWhile fun c => (digitValue radix c).isSome).filterMap (digitValue radix)

theorem leadingInteger_eq (s : String) (radix : Nat) :
    leadingInteger s radix =
      match accumulate radix none (signedBody s radix).2 with
      | some v => if (signedBody s radix).1 then v.neg else v
      | none => nan := rfl

theorem digitRun_cons_of_none {radix : Nat} {c : Char} (h : digitValue radix c = none) (cs : List Char) :
    digitRun radix (c :: cs) = [] := by
  simp [digitRun, h]

theorem digitRun_cons_of_some {radix : Nat} {c : Char} {d : Nat} (h : digitValue radix c = some d)
    (cs : List Char) : digitRun radix (c :: cs) = d :: digitRun radix cs := by
  simp [digitRun, h]

theorem digitValue_lt {radix : Nat} {c : Char} {d : Nat} (h : digitValue radix c = some d) : d < radix := by
  simp only [digitValue, Option.bind_eq_some_iff] at h
  obtain ⟨e, -, he⟩ := h
  split at he
  · cases he
    assumption
  · cases he

/-- A left fold of digits by `acc * b + d` is the number they spell after the
running value. -/
theorem foldl_horner (b : Nat) (ds : List Nat) (w : Nat) :
    ds.foldl (fun acc d => acc * b + d) w = w * b ^ ds.length + Nat.ofDigits b ds.reverse := by
  induction ds generalizing w with
  | nil => simp
  | cons d ds ih =>
    rw [List.foldl_cons, ih, List.reverse_cons, Nat.ofDigits_append, Nat.ofDigits_singleton,
      List.length_reverse, List.length_cons, pow_succ]
    ring

/-- The double accumulated so far against the exact value read so far: equal
below `2 ^ 53`, big from there on. -/
def Tracks (acc : Binary64) (w : Nat) : Prop :=
  (w < 2 ^ 53 ∧ acc = ofNat w) ∨ (2 ^ 53 ≤ w ∧ Big acc)

theorem tracks_of_exact {n : Nat} : Tracks (ofNat n) n := by
  rcases Nat.lt_or_ge n (2 ^ 53) with h | h
  · exact .inl ⟨h, rfl⟩
  · exact .inr ⟨h, big_ofNat h⟩

theorem Tracks.step {acc : Binary64} {w radix d : Nat} (h : Tracks acc w) (hradix : radix ≤ 36)
    (hd : d < radix) : Tracks (acc * ofNat radix + ofNat d) (w * radix + d) := by
  have hr : radix < 2 ^ 53 := by omega
  have hd' : d < 2 ^ 53 := by omega
  obtain ⟨hrf, hrs, hrv⟩ := ofNat_exact hr
  obtain ⟨hdf, hds, hdv⟩ := ofNat_exact hd'
  rcases h with ⟨hw, rfl⟩ | ⟨hw, hbig⟩
  · obtain ⟨hwf, hws, hwv⟩ := ofNat_exact hw
    rw [mul_eq_ofNat hwf hrf hws hrs hwv hrv]
    rcases Nat.lt_or_ge (w * radix) (2 ^ 53) with hp | hp
    · obtain ⟨hpf, hps, hpv⟩ := ofNat_exact hp
      rw [add_eq_ofNat hpf hdf hps hds hpv hdv]
      exact tracks_of_exact
    · exact .inr ⟨by omega, (big_ofNat hp).add_ofNat hd'⟩
  · have hw' : w ≤ w * radix := Nat.le_mul_of_pos_right w (by omega)
    exact .inr ⟨by omega, (hbig.mul_ofNat (by omega) hr).add_ofNat hd'⟩

theorem accumulate_tracks {radix : Nat} (hradix : radix ≤ 36) (cs : List Char) {acc : Binary64} {w : Nat}
    (h : Tracks acc w) : ∃ acc', accumulate radix (some acc) cs = some acc' ∧
      Tracks acc' ((digitRun radix cs).foldl (fun a d => a * radix + d) w) := by
  induction cs generalizing acc w with
  | nil => exact ⟨acc, rfl, h⟩
  | cons c cs ih =>
    cases hc : digitValue radix c with
    | none => exact ⟨acc, by simp [accumulate, hc], by simpa [digitRun_cons_of_none hc] using h⟩
    | some d =>
      obtain ⟨acc', hacc, htr⟩ := ih (h.step hradix (digitValue_lt hc))
      refine ⟨acc', ?_, ?_⟩
      · simpa [accumulate, hc] using hacc
      · simpa [digitRun_cons_of_some hc] using htr

theorem accumulate_none {radix : Nat} (cs : List Char) :
    accumulate radix none cs = if digitRun radix cs = [] then none else accumulate radix (some (ofNat 0)) cs := by
  cases cs with
  | nil => rfl
  | cons c cs =>
    cases hc : digitValue radix c with
    | none => simp [accumulate, hc, digitRun_cons_of_none hc]
    | some d => simp [accumulate, hc, digitRun_cons_of_some hc, ofNat_zero]

/-- The three shapes of a leading integer: NaN without digits, the exact signed
value below `2 ^ 53`, and a big double with the sign otherwise. -/
theorem leadingInteger_cases {radix : Nat} (hradix : radix ≤ 36) (s : String) :
    let negative := (signedBody s radix).1
    let digits := digitRun radix (signedBody s radix).2
    let v := Nat.ofDigits radix digits.reverse
    (digits = [] → leadingInteger s radix = nan) ∧
    (digits ≠ [] → v < 2 ^ 53 → leadingInteger s radix = round negative v 1 0) ∧
    (digits ≠ [] → 2 ^ 53 ≤ v → ∃ x, Big x ∧ leadingInteger s radix = if negative then x.neg else x) := by
  intro negative digits v
  have hfold : digits.foldl (fun a d => a * radix + d) 0 = v := by
    rw [foldl_horner]
    simp [v]
  obtain ⟨acc, hacc, htr⟩ := accumulate_tracks hradix (signedBody s radix).2 (tracks_of_exact (n := 0))
  rw [hfold] at htr
  refine ⟨fun hd => ?_, fun hd hv => ?_, fun hd hv => ?_⟩
  · rw [leadingInteger_eq, accumulate_none, if_pos hd]
  · rw [leadingInteger_eq, accumulate_none, if_neg hd, hacc]
    rcases htr with ⟨-, rfl⟩ | ⟨hv', -⟩
    · exact signed_ofNat negative hv
    · omega
  · rw [leadingInteger_eq, accumulate_none, if_neg hd, hacc]
    rcases htr with ⟨hv', -⟩ | ⟨-, hbig⟩
    · omega
    · exact ⟨acc, hbig, rfl⟩

end Coerce

namespace Binary64

/-- A big double with a sign: not NaN, and infinite or a whole number of
magnitude at least `2 ^ 53`. -/
theorem Big.signed {x : Binary64} (h : Big x) (negative : Bool) :
    let y := if negative then x.neg else x
    y.isNaN = false ∧ y.signField = negative ∧ 1076 ≤ y.exponentField ∧
      (y.isInfinite = true ∨ (y.isFinite = true ∧ y.isIntegral = true ∧ 2 ^ 53 ≤ |y.toRat|)) := by
  intro y
  obtain ⟨hs, hn, he⟩ := h
  have hy : y.isNaN = x.isNaN ∧ y.signField = negative ∧ y.exponentField = x.exponentField ∧
      y.isFinite = x.isFinite ∧ y.isInfinite = x.isInfinite ∧ |y.toRat| = |x.toRat| := by
    cases negative <;> simp [y, hs, toRat_neg]
  obtain ⟨hyn, hys, hye, hyf, hyi, hyv⟩ := hy
  refine ⟨hyn ▸ hn, hys, hye ▸ he, ?_⟩
  cases hfin : x.isFinite
  · have hexp : x.exponentField = 2047 := by simpa [isFinite] using hfin
    have hfrac : x.fractionField = 0 := by simpa [isNaN, hexp] using hn
    left
    rw [hyi]
    simp [isInfinite, hexp, hfrac]
  · obtain ⟨v, hv, hxv⟩ := Big.exists_toRat ⟨hs, hn, he⟩
    refine .inr ⟨hyf.trans hfin, isIntegral_of_exponentField (hyf.trans hfin) (hye ▸ he), ?_⟩
    rw [hyv, hxv, abs_of_nonneg (by positivity)]
    exact_mod_cast hv

end Binary64

namespace Resolver

open Binary64 Coerce

theorem numberValue_round (negative : Bool) {n : Nat} (h : n < 2 ^ 53) (path : KeyPath)
    (input : Option Value) :
    numberValue (round negative n 1 0) path input = .ok (.num (.int (if negative then -(n : Int) else n))) := by
  unfold numberValue
  rw [isIntegral_round negative h, magnitudeBelowPow2_round negative h,
    truncate_round negative h]
  rfl

theorem numberValue_of_exponentField {x : Binary64} (hx : x.isFinite = true) (he : 1076 ≤ x.exponentField)
    (path : KeyPath) (input : Option Value) : numberValue x path input = .ok (.num (.float x)) := by
  unfold numberValue
  rw [isIntegral_of_exponentField hx he, magnitudeBelowPow2_of_exponentField hx he]
  simp [isNaN_of_isFinite hx, hx]

theorem numberValue_infinite {x : Binary64} (hx : x.isInfinite = true) (path : KeyPath) (s : String) :
    numberValue x path (some (.str s)) = .error (.integerOutOfRange path s) := by
  have hfin : x.isFinite = false := by simp_all [isInfinite, isFinite]
  have hnan : x.isNaN = false := by simp_all [isInfinite, isNaN]
  simp [numberValue, isIntegral, hfin, hnan]

theorem numberValue_nan (path : KeyPath) (s : String) :
    numberValue nan path (some (.str s)) = .error (.notAnInteger path s) := rfl

theorem intResult_str (path : KeyPath) (radix : Nat) {s : String} (hs : s ≠ "") :
    intResult path radix (.ok (some (.str s))) =
      (numberValue (leadingInteger s radix) path (some (.str s))).map some := by
  simp [intResult, toInt, hs, Except.bind]

/-- An integer below `2 ^ 53` in magnitude, coerced again, is the same integer. -/
theorem intResult_int (path : KeyPath) (radix : Nat) {i : Int} (hi : i.natAbs < 2 ^ 53) :
    intResult path radix (.ok (some (.num (.int i)))) = .ok (some (.num (.int i))) := by
  have hv := numberValue_round (decide (i < 0)) hi path (some (.num (.int i)))
  have hsign : (if decide (i < 0) then -(i.natAbs : Int) else i.natAbs) = i := by
    split <;> rename_i h <;> simp only [decide_eq_true_eq] at h <;> omega
  rw [hsign] at hv
  simp [intResult, toInt, Number.toBinary64, ofInt, hv, Except.map, Except.bind]

/-- A whole float of magnitude at least `2 ^ 53`, coerced again, is the same float. -/
theorem intResult_float (path : KeyPath) (radix : Nat) {x : Binary64} (hx : x.isFinite = true)
    (he : 1076 ≤ x.exponentField) :
    intResult path radix (.ok (some (.num (.float x)))) = .ok (some (.num (.float x))) := by
  simp [intResult, toInt, Number.toBinary64, numberValue_of_exponentField hx he, Except.map, Except.bind]

/-- An integer directive never gives a wrong integer. The leading integer of a
non-empty text is coerced to the double `x`: NaN exactly when the text has no
digits, the exact signed value when that is below `2 ^ 53`, and otherwise
infinite or a whole number of magnitude at least `2 ^ 53`, with the text's
sign. The directive gives an integer only in the exact case, fails with
`notAnInteger` without digits and with `integerOutOfRange` on overflow, and
gives the float otherwise; what it gives, coerced again in any radix, comes
back unchanged. -/
theorem integer_directive_exact (path : KeyPath) {radix : Nat} (hradix : radix ≤ 36) {s : String}
    (hs : s ≠ "") :
    let negative := (signedBody s radix).1
    let digits := digitRun radix (signedBody s radix).2
    let v := Nat.ofDigits radix digits.reverse
    let x := leadingInteger s radix
    toInt (some (.str s)) radix = .value x ∧
    (x.isNaN = true ↔ digits = []) ∧
    (digits ≠ [] → x.signField = negative) ∧
    (digits ≠ [] → v < 2 ^ 53 → x.isFinite = true ∧ x.toRat = if negative then -(v : ℚ) else v) ∧
    (digits ≠ [] → 2 ^ 53 ≤ v →
      x.isInfinite = true ∨ (x.isFinite = true ∧ x.isIntegral = true ∧ 2 ^ 53 ≤ |x.toRat|)) ∧
    intResult path radix (.ok (some (.str s))) =
      (if digits = [] then .error (.notAnInteger path s)
        else if v < 2 ^ 53 then .ok (some (.num (.int (if negative then -(v : Int) else v))))
        else if x.isFinite then .ok (some (.num (.float x)))
        else .error (.integerOutOfRange path s)) ∧
    ∀ radix', intResult path radix' (intResult path radix (.ok (some (.str s)))) =
      intResult path radix (.ok (some (.str s))) := by
  intro negative digits v x
  obtain ⟨hnan, hsmall, hbig⟩ := leadingInteger_cases hradix s
  have hint : intResult path radix (.ok (some (.str s))) = (numberValue x path (some (.str s))).map some :=
    intResult_str path radix hs
  have htoInt : toInt (some (.str s)) radix = .value x := by simp [toInt, hs, x]
  by_cases hd : digits = []
  · -- no digits: NaN
    have hx : x = nan := hnan hd
    have hres : intResult path radix (.ok (some (.str s))) = .error (.notAnInteger path s) := by
      rw [hint, hx, numberValue_nan]
      rfl
    refine ⟨htoInt, ⟨fun _ => hd, fun _ => by rw [hx]; rfl⟩, (absurd hd ·), (absurd hd ·), (absurd hd ·),
      by rw [hres, if_pos hd], fun radix' => by rw [hres]; rfl⟩
  by_cases hv : v < 2 ^ 53
  · -- below `2 ^ 53`: the exact signed value
    have hx : x = round negative v 1 0 := hsmall hd hv
    obtain ⟨hfin, hsign, hval⟩ := round_exact negative hv
    have hres : intResult path radix (.ok (some (.str s))) =
        .ok (some (.num (.int (if negative then -(v : Int) else v)))) := by
      rw [hint, hx, numberValue_round negative hv]
      rfl
    have habs : (if negative then -(v : Int) else v).natAbs < 2 ^ 53 := by
      cases negative <;> simpa using hv
    refine ⟨htoInt, ⟨fun h => ?_, (absurd · hd)⟩, fun _ => hx ▸ hsign, fun _ _ => hx ▸ ⟨hfin, hval⟩,
      fun _ h => absurd h (Nat.not_le.2 hv), by rw [hres, if_neg hd, if_pos hv],
      fun radix' => by rw [hres]; exact intResult_int path radix' habs⟩
    rw [hx, isNaN_of_isFinite hfin] at h
    cases h
  · -- from `2 ^ 53` on: big, with the sign
    obtain ⟨X, hX, hx⟩ := hbig hd (Nat.le_of_not_lt hv)
    obtain ⟨hyn, hys, hye, hcase⟩ := hX.signed negative
    rw [← hx] at hyn hys hye hcase
    have hres : intResult path radix (.ok (some (.str s))) =
        if x.isFinite then .ok (some (.num (.float x))) else .error (.integerOutOfRange path s) := by
      rw [hint]
      cases hfin : x.isFinite
      · have hinf : x.isInfinite = true := by
          rcases hcase with h | ⟨h, -⟩
          · exact h
          · rw [hfin] at h
            cases h
        rw [numberValue_infinite hinf]
        rfl
      · rw [numberValue_of_exponentField hfin hye]
        rfl
    refine ⟨htoInt, ⟨fun h => absurd (hyn.symm.trans h) Bool.false_ne_true, (absurd · hd)⟩, fun _ => hys,
      fun _ h => absurd h hv, fun _ _ => hcase, by rw [hres, if_neg hd, if_neg hv], fun radix' => ?_⟩
    rw [hres]
    cases hfin : x.isFinite
    · rfl
    · exact intResult_float path radix' hfin hye

theorem integer_directive_exact_hex :
    intResult [] 16 (.ok (some (.str " -0x1F"))) = .ok (some (.num (.int (-31)))) := by
  have h := (integer_directive_exact [] (by norm_num : 16 ≤ 36) (by decide : " -0x1F" ≠ "")).2.2.2.2.2.1
  have hdigits : digitRun 16 (signedBody " -0x1F" 16).2 = [1, 15] := by decide
  have hneg : (signedBody " -0x1F" 16).1 = true := by decide
  simp only [hdigits, hneg] at h
  rw [h]
  simp [Nat.ofDigits]

end Resolver

end LayeredConfig
