import LayeredConfig.Text.Utf8
import LayeredConfig.Text.Base64

/-! Round trips of the byte codecs. The UTF-8 decoder reads back every text
from its bytes: a code point of `k` bytes passes exactly the checks of a
`k`-byte sequence (the lead byte's range, the continuation bytes, and the
second-byte ranges that exclude overlong forms, surrogates and code points past
U+10FFFF), and recombines to itself. An ASCII text is encoded byte for byte.

Strict base64 decoding reads back the bytes of every encoding. The encoding of
`n > 0` bytes is the whole groups of three at the front, four symbols each,
followed by the last group of one to three bytes padded to four symbols; the
decoder reads the front group by group and the last group by itself, and the
padding it finds is exactly what strict decoding asks for. Every character of
an encoding is ASCII and none is a colon. -/

namespace LayeredConfig

theorem ByteArray.toList_eq_data (bs : ByteArray) : bs.toList = bs.data.toList := by
  have hloop : ∀ i r, ByteArray.toList.loop bs i r = r.reverse ++ bs.data.toList.drop i := by
    intro i r
    fun_induction ByteArray.toList.loop bs i r with
    | case1 i r hi ih =>
      have hlen : i < bs.data.toList.length := by simpa using hi
      rw [ih, List.drop_eq_getElem_cons hlen]
      simp [ByteArray.get!, getElem!_pos bs.data i (by simpa using hi)]
    | case2 i r hi =>
      have hlen : bs.data.toList.length ≤ i := by simpa using Nat.le_of_not_lt hi
      simp [List.drop_of_length_le hlen]
  simp [ByteArray.toList, hloop]

namespace Utf8

theorem encode_eq_flatMap (s : String) : encode s = s.toList.flatMap String.utf8EncodeChar := by
  have h : s.toByteArray = s.toList.utf8Encode := by
    rw [← String.toByteArray_ofList, String.ofList_toList]
  rw [encode, String.toUTF8_eq_toByteArray, h, List.utf8Encode, ByteArray.toList_eq_data,
    List.toList_data_toByteArray]

def asciiByte (c : Char) : UInt8 := UInt8.ofNat c.toNat

theorem encode_ofList_ascii {cs : List Char} (h : ∀ c ∈ cs, c.toNat < 128) :
    encode (String.ofList cs) = cs.map asciiByte := by
  rw [encode_eq_flatMap, String.toList_ofList]
  induction cs with
  | nil => rfl
  | cons c rest ih =>
    have hc : c.toNat ≤ 0x7f := Nat.le_of_lt_succ (h c List.mem_cons_self)
    rw [List.flatMap_cons, ih fun d hd => h d (List.mem_cons_of_mem c hd), List.map_cons]
    simp [String.utf8EncodeChar, asciiByte, hc]

theorem width_eq (b : UInt8) : width b =
    if b.toNat < 0x80 then 1 else if b.toNat < 0xC2 then 0 else if b.toNat < 0xE0 then 2
    else if b.toNat < 0xF0 then 3 else if b.toNat < 0xF5 then 4 else 0 := by
  simp [width, UInt8.lt_iff_toNat_lt]

theorem isContinuation_eq (b : UInt8) : isContinuation b = (0x80 ≤ b.toNat && b.toNat ≤ 0xBF) := by
  simp [isContinuation, UInt8.le_iff_toNat_le]

theorem secondAllowed_eq (b c : UInt8) : secondAllowed b c =
    if b.toNat = 0xE0 then 0xA0 ≤ c.toNat && c.toNat ≤ 0xBF
    else if b.toNat = 0xED then 0x80 ≤ c.toNat && c.toNat ≤ 0x9F
    else if b.toNat = 0xF0 then 0x90 ≤ c.toNat && c.toNat ≤ 0xBF
    else if b.toNat = 0xF4 then 0x80 ≤ c.toNat && c.toNat ≤ 0x8F
    else isContinuation c := by
  simp [secondAllowed, UInt8.le_iff_toNat_le, ← UInt8.toNat_inj]

theorem isContinuation_low (x : Nat) : isContinuation (UInt8.ofNat (x % 64 + 0x80)) = true := by
  rw [isContinuation_eq, UInt8.toNat_ofNat']
  simp only [Nat.reducePow, Bool.and_eq_true, decide_eq_true_eq]
  omega

theorem decodeOne_oneByte {v : Nat} (h : v ≤ 0x7f) (rest : List UInt8) :
    decodeOne (UInt8.ofNat v :: rest) = .ok (v, 1, rest) := by
  have hw : width (UInt8.ofNat v) = 1 := by
    rw [width_eq, UInt8.toNat_ofNat', if_pos (by simp only [Nat.reducePow]; omega)]
  simp only [decodeOne, hw, UInt8.toNat_ofNat', Nat.reducePow, Except.ok.injEq, Prod.mk.injEq,
    and_true]
  omega

theorem decodeOne_twoBytes {v : Nat} (h₁ : 0x7f < v) (h₂ : v ≤ 0x7ff) (rest : List UInt8) :
    decodeOne (UInt8.ofNat (v / 64 % 32 + 0xc0) :: UInt8.ofNat (v % 64 + 0x80) :: rest) =
      .ok (v, 2, rest) := by
  have hw : width (UInt8.ofNat (v / 64 % 32 + 0xc0)) = 2 := by
    rw [width_eq, UInt8.toNat_ofNat']
    split <;> (try split) <;> (try split) <;> omega
  simp only [decodeOne, hw, isContinuation_low, if_true, UInt8.toNat_ofNat', Nat.reducePow,
    Except.ok.injEq, Prod.mk.injEq, and_true]
  omega

theorem decodeOne_threeBytes {v : Nat} (h₁ : 0x7ff < v) (h₂ : v ≤ 0xffff)
    (hsurrogate : v < 0xd800 ∨ 0xdfff < v) (rest : List UInt8) :
    decodeOne (UInt8.ofNat (v / 4096 % 16 + 0xe0) :: UInt8.ofNat (v / 64 % 64 + 0x80) ::
      UInt8.ofNat (v % 64 + 0x80) :: rest) = .ok (v, 3, rest) := by
  have hw : width (UInt8.ofNat (v / 4096 % 16 + 0xe0)) = 3 := by
    rw [width_eq, UInt8.toNat_ofNat']
    split <;> (try split) <;> (try split) <;> (try split) <;> omega
  -- the second byte keeps out overlong forms after `E0` and surrogates after `ED`
  have hsecond : secondAllowed (UInt8.ofNat (v / 4096 % 16 + 0xe0))
      (UInt8.ofNat (v / 64 % 64 + 0x80)) = true := by
    rw [secondAllowed_eq, isContinuation_eq, UInt8.toNat_ofNat', UInt8.toNat_ofNat']
    split <;> (try split) <;> (try split) <;> (try split) <;> simp <;> omega
  simp only [decodeOne, hw, hsecond, isContinuation_low, Bool.not_true, Bool.false_eq_true,
    if_true, if_false, UInt8.toNat_ofNat', Nat.reducePow, Except.ok.injEq, Prod.mk.injEq, and_true]
  omega

theorem decodeOne_fourBytes {v : Nat} (h₁ : 0xffff < v) (h₂ : v < 0x110000) (rest : List UInt8) :
    decodeOne (UInt8.ofNat (v / 262144 % 8 + 0xf0) :: UInt8.ofNat (v / 4096 % 64 + 0x80) ::
      UInt8.ofNat (v / 64 % 64 + 0x80) :: UInt8.ofNat (v % 64 + 0x80) :: rest) = .ok (v, 4, rest) := by
  have hw : width (UInt8.ofNat (v / 262144 % 8 + 0xf0)) = 4 := by
    rw [width_eq, UInt8.toNat_ofNat']
    split <;> (try split) <;> (try split) <;> (try split) <;> (try split) <;> omega
  -- the second byte keeps out overlong forms after `F0` and code points past U+10FFFF after `F4`
  have hsecond : secondAllowed (UInt8.ofNat (v / 262144 % 8 + 0xf0))
      (UInt8.ofNat (v / 4096 % 64 + 0x80)) = true := by
    rw [secondAllowed_eq, isContinuation_eq, UInt8.toNat_ofNat', UInt8.toNat_ofNat']
    split <;> (try split) <;> (try split) <;> (try split) <;> simp <;> omega
  simp only [decodeOne, hw, hsecond, isContinuation_low, Bool.not_true, Bool.false_eq_true,
    if_true, if_false, UInt8.toNat_ofNat', Nat.reducePow, Except.ok.injEq, Prod.mk.injEq, and_true]
  omega

/-- The encoding of a character decodes to its code point, whatever follows it. -/
theorem decodeOne_utf8EncodeChar (c : Char) (rest : List UInt8) :
    decodeOne (String.utf8EncodeChar c ++ rest) =
      .ok (c.toNat, (String.utf8EncodeChar c).length, rest) := by
  have hvalid : c.toNat < 0xd800 ∨ (0xdfff < c.toNat ∧ c.toNat < 0x110000) := by
    simpa [UInt32.isValidChar, Nat.isValidChar] using c.valid
  have hv : c.val.toNat = c.toNat := rfl
  unfold String.utf8EncodeChar
  simp only [hv]
  split
  · exact decodeOne_oneByte ‹_› rest
  · split
    · exact decodeOne_twoBytes (by omega) ‹_› rest
    · split
      · exact decodeOne_threeBytes (by omega) ‹_› (by omega) rest
      · exact decodeOne_fourBytes (by omega) (by omega) rest

theorem decodeFrom_flatMap (cs : List Char) {fuel : Nat} (hfuel : cs.length < fuel) (pos : Nat)
    (acc : List Char) :
    decodeFrom fuel pos (cs.flatMap String.utf8EncodeChar) acc =
      .ok (String.ofList (acc.reverse ++ cs)) := by
  induction cs generalizing fuel pos acc with
  | nil =>
    obtain ⟨fuel, rfl⟩ : ∃ f, fuel = f + 1 := ⟨fuel - 1, by simp at hfuel; omega⟩
    simp [decodeFrom]
  | cons c rest ih =>
    obtain ⟨fuel, rfl⟩ : ∃ f, fuel = f + 1 := ⟨fuel - 1, by simp at hfuel; omega⟩
    have hdec := decodeOne_utf8EncodeChar c (rest.flatMap String.utf8EncodeChar)
    obtain ⟨b, bs, hbs⟩ := List.exists_cons_of_ne_nil
      (by simp : String.utf8EncodeChar c ++ rest.flatMap String.utf8EncodeChar ≠ [])
    rw [hbs] at hdec
    rw [List.flatMap_cons, hbs]
    simp only [decodeFrom, hdec, Char.ofNat_toNat]
    rw [ih (by simp at hfuel; omega)]
    simp

/-- Decoding the UTF-8 bytes of a text gives the text back. -/
theorem decode_encode (s : String) : decode (encode s) = .ok s := by
  have hlen : ∀ cs : List Char, cs.length ≤ (cs.flatMap String.utf8EncodeChar).length := by
    intro cs
    induction cs with
    | nil => simp
    | cons c rest ih =>
      have : 0 < (String.utf8EncodeChar c).length := by simpa using c.utf8Size_pos
      simp only [List.flatMap_cons, List.length_append, List.length_cons]
      omega
  rw [decode, encode_eq_flatMap, decodeFrom_flatMap _ (Nat.lt_succ_of_le (hlen _))]
  simp

end Utf8

namespace Base64

open Utf8 (asciiByte)

theorem symbol_spec : ∀ n, n < 64 → (symbol n).toNat < 128 ∧ asciiByte (symbol n) ≠ 61 ∧
    symbolValue (asciiByte (symbol n)) = some n := by decide

def sextets : List UInt8 → List Nat
  | a :: b :: c :: rest =>
    let n := a.toNat * 65536 + b.toNat * 256 + c.toNat
    [n / 262144, n / 4096 % 64, n / 64 % 64, n % 64] ++ sextets rest
  | _ => []

theorem encodeGroups_nil (k : Nat) : encodeGroups k [] = [] := by cases k <;> rfl

theorem encodeGroups_append {front : List UInt8} (h : front.length % 3 = 0) (last : List UInt8)
    (k : Nat) :
    encodeGroups (k + front.length / 3) (front ++ last) = (sextets front).map symbol ++ encodeGroups k last := by
  fun_induction sextets front with
  | case1 a b c rest n ih =>
    have hk : k + (a :: b :: c :: rest).length / 3 = (k + rest.length / 3) + 1 := by simp; omega
    rw [hk, List.cons_append, List.cons_append, List.cons_append, encodeGroups,
      ih (by simp at h; omega)]
    simp [n]
  | case2 xs hxs =>
    match xs, hxs with
    | [], _ => simp
    | [_], _ | [_, _], _ => simp at h
    | _ :: _ :: _ :: _, hxs => exact absurd rfl (hxs _ _ _ _)

theorem sextets_lt {front : List UInt8} : ∀ v ∈ sextets front, v < 64 := by
  fun_induction sextets front with
  | case1 a b c rest n ih =>
    have ha := a.toNat_lt
    have hb := b.toNat_lt
    have hc := c.toNat_lt
    intro v hv
    simp only [List.cons_append, List.nil_append, List.mem_cons] at hv
    rcases hv with rfl | rfl | rfl | rfl | hv
    all_goals first | exact ih v hv | simp only [n]; omega
  | case2 => simp

theorem groupValues_symbols {vs : List Nat} (h : ∀ v ∈ vs, v < 64) (i : Nat) :
    groupValues i (vs.map (asciiByte ∘ symbol)) = .ok vs := by
  induction vs generalizing i with
  | nil => rfl
  | cons v rest ih =>
    have hv := (symbol_spec v (h v List.mem_cons_self)).2.2
    simp only [List.map_cons, Function.comp_apply, groupValues, hv, ih (fun w hw => h w (List.mem_cons_of_mem v hw))]
    rfl

theorem groupBytes_sextets {front : List UInt8} (h : front.length % 3 = 0) :
    groupBytes (sextets front) = front := by
  fun_induction sextets front with
  | case1 a b c rest n ih =>
    have ha := a.toNat_lt
    have hb := b.toNat_lt
    have hc := c.toNat_lt
    have hrest := ih (by simp at h; omega)
    simp only [List.cons_append, List.nil_append, groupBytes, hrest, List.cons.injEq, and_true,
      ← UInt8.toNat_inj, UInt8.toNat_ofNat', n]
    omega
  | case2 xs hxs =>
    match xs, hxs with
    | [], _ => rfl
    | [_], _ | [_, _], _ => simp at h
    | _ :: _ :: _ :: _, hxs => exact absurd rfl (hxs _ _ _ _)

theorem asciiByte_pad : asciiByte '=' = pad := rfl

/-- The last group, one to three bytes with its padding, reads back as those bytes. -/
theorem decodeTail_lastGroup {last : List UInt8} (h₁ : 0 < last.length) (h₃ : last.length ≤ 3)
    (k start : Nat) :
    decodeTail .strict true start ((encodeGroups (k + 1) last).map asciiByte) = .ok last := by
  match last, h₁, h₃ with
  | [a], _, _ =>
    have ha := a.toNat_lt
    have s₀ := symbol_spec (a.toNat * 65536 / 262144) (by omega)
    have s₁ := symbol_spec (a.toNat * 65536 / 4096 % 64) (by omega)
    simp only [encodeGroups, List.map, decodeTail, readTail, asciiByte_pad, pad, bind, Except.bind, pure,
      Except.pure, s₀.2.1, s₀.2.2, s₁.2.1, s₁.2.2]
    simp
    rw [if_pos (by omega)]
    simp only [Except.ok.injEq, List.cons.injEq, and_true, ← UInt8.toNat_inj, UInt8.toNat_ofNat']
    omega
  | [a, b], _, _ =>
    have ha := a.toNat_lt
    have hb := b.toNat_lt
    have s₀ := symbol_spec ((a.toNat * 65536 + b.toNat * 256) / 262144) (by omega)
    have s₁ := symbol_spec ((a.toNat * 65536 + b.toNat * 256) / 4096 % 64) (by omega)
    have s₂ := symbol_spec ((a.toNat * 65536 + b.toNat * 256) / 64 % 64) (by omega)
    simp [encodeGroups, decodeTail, readTail, asciiByte_pad, pad, bind, Except.bind, pure, Except.pure,
      s₀.2.1, s₀.2.2, s₁.2.1, s₁.2.2, s₂.2.1, s₂.2.2]
    rw [if_pos (by omega)]
    simp only [Except.ok.injEq, List.range_succ, List.range_zero, List.nil_append, List.map_cons,
      List.map_nil, List.cons_append, List.cons.injEq, and_true, ← UInt8.toNat_inj, UInt8.toNat_ofNat']
    omega
  | [a, b, c], _, _ =>
    have ha := a.toNat_lt
    have hb := b.toNat_lt
    have hc := c.toNat_lt
    have s₀ := symbol_spec ((a.toNat * 65536 + b.toNat * 256 + c.toNat) / 262144) (by omega)
    have s₁ := symbol_spec ((a.toNat * 65536 + b.toNat * 256 + c.toNat) / 4096 % 64) (by omega)
    have s₂ := symbol_spec ((a.toNat * 65536 + b.toNat * 256 + c.toNat) / 64 % 64) (by omega)
    have s₃ := symbol_spec ((a.toNat * 65536 + b.toNat * 256 + c.toNat) % 64) (by omega)
    simp [encodeGroups, encodeGroups_nil, decodeTail, readTail, pad, bind, Except.bind, pure,
      Except.pure, s₀.2.1, s₀.2.2, s₁.2.1, s₁.2.2, s₂.2.1, s₂.2.2, s₃.2.1, s₃.2.2]
    rw [if_pos (by omega)]
    simp only [Except.ok.injEq, List.range_succ, List.range_zero, List.nil_append, List.map_cons,
      List.map_nil, List.cons_append, List.cons.injEq, and_true, ← UInt8.toNat_inj, UInt8.toNat_ofNat']
    omega

/-- A property of the first 64 symbols holds of every symbol: past the
alphabet, `symbol` gives its last one. -/
theorem forall_symbol {P : Char → Prop} (h : ∀ n, n < 64 → P (symbol n)) (n : Nat) : P (symbol n) := by
  by_cases hn : n < 64
  · exact h n hn
  · have hs : symbol n = symbol 63 := by
      simp only [symbol, if_neg (show ¬ n < 26 by omega), if_neg (show ¬ n < 52 by omega),
        if_neg (show ¬ n < 62 by omega), if_neg (show n ≠ 62 by omega)]
      rfl
    exact hs ▸ h 63 (by omega)

theorem encodeGroups_forall {P : Char → Prop} (hsymbol : ∀ n, P (symbol n)) (hpad : P '=') (k : Nat)
    (bytes : List UInt8) : ∀ c ∈ encodeGroups k bytes, P c := by
  fun_induction encodeGroups k bytes with
  | case1 | case2 => simp
  | case3 | case4 => simp [hsymbol, hpad]
  | case5 fuel a b c rest n ih =>
    intro ch hch
    simp only [List.cons_append, List.nil_append, List.mem_cons] at hch
    rcases hch with rfl | rfl | rfl | rfl | hch
    all_goals first | exact ih ch hch | exact hsymbol _

theorem encodeGroups_ascii (k : Nat) (bytes : List UInt8) : ∀ c ∈ encodeGroups k bytes, c.toNat < 128 :=
  encodeGroups_forall (forall_symbol (P := (·.toNat < 128)) fun n hn => (symbol_spec n hn).1) (by decide) k bytes

theorem sextets_length (front : List UInt8) : (sextets front).length = 4 * (front.length / 3) := by
  fun_induction sextets front with
  | case1 a b c rest n ih => simp [ih]; omega
  | case2 xs hxs =>
    match xs, hxs with
    | [], _ | [_], _ | [_, _], _ => simp
    | _ :: _ :: _ :: _, hxs => exact absurd rfl (hxs _ _ _ _)

theorem encodeGroups_lastGroup_length {last : List UInt8} (h₁ : 0 < last.length) (h₃ : last.length ≤ 3)
    (k : Nat) : (encodeGroups (k + 1) last).length = 4 := by
  match last, h₁, h₃ with
  | [_], _, _ | [_, _], _, _ => rfl
  | [_, _, _], _, _ => simp [encodeGroups, encodeGroups_nil]

/-- A text of whole groups of four is decoded as its groups but the last, then
the last group by itself. -/
theorem decode_append_lastGroup (mode : Mode) {body tail : List UInt8} (hbody : body.length % 4 = 0)
    (htail : tail.length = 4) :
    decode mode (body ++ tail) = (do
      let values ← groupValues 0 body
      let bytes ← decodeTail mode true body.length tail
      return groupBytes values ++ bytes) := by
  have hrem : (body ++ tail).length % 4 = 0 := by simp; omega
  have hcut : (body ++ tail).length - 4 = body.length := by simp; omega
  have hwhole : (body ++ tail).isEmpty = false := by
    rw [List.isEmpty_eq_false_iff, ← List.length_pos_iff]; simp; omega
  simp only [decode, hrem, hcut, hwhole, List.take_left, List.drop_left, if_true, Nat.zero_ne_one, if_false,
    Bool.not_false]

/-- A non-empty byte list is whole groups of three bytes and a last group of one
to three; its encoding is the symbols of the whole groups, then the last group
encoded by itself. -/
theorem encode_front_last {bytes : List UInt8} (hlen : 0 < bytes.length) :
    ∃ front last k, bytes = front ++ last ∧ front.length % 3 = 0 ∧ 0 < last.length ∧
      last.length ≤ 3 ∧ (encode bytes).toList = (sextets front).map symbol ++ encodeGroups (k + 1) last := by
  obtain ⟨front, last, rfl, hfront, hlast₁, hlast₃⟩ : ∃ front last, bytes = front ++ last ∧
      front.length % 3 = 0 ∧ 0 < last.length ∧ last.length ≤ 3 :=
    ⟨bytes.take (3 * ((bytes.length - 1) / 3)), bytes.drop (3 * ((bytes.length - 1) / 3)),
      (List.take_append_drop _ _).symm, by simp; omega, by simp; omega, by simp; omega⟩
  have hfuel : (front ++ last).length + 1 = (front.length - front.length / 3 + last.length) + 1 +
      front.length / 3 := by simp; omega
  refine ⟨front, last, front.length - front.length / 3 + last.length, rfl, hfront, hlast₁, hlast₃, ?_⟩
  rw [encode, String.toList_ofList, hfuel, encodeGroups_append hfront]

/-- Strict decoding reads back the bytes of every encoding. -/
theorem decode_encode (bytes : List UInt8) :
    decode .strict (Utf8.encode (encode bytes)) = .ok bytes := by
  rcases Nat.eq_zero_or_pos bytes.length with hlen | hlen
  · rw [List.length_eq_zero_iff.1 hlen]
    simp [encode, encodeGroups, Utf8.encode_eq_flatMap]
    rfl
  obtain ⟨front, last, k, rfl, hfront, hlast₁, hlast₃, hchars⟩ := encode_front_last hlen
  have hascii : ∀ c ∈ (encode (front ++ last)).toList, c.toNat < 128 := by
    rw [encode, String.toList_ofList]
    exact encodeGroups_ascii _ _
  rw [← String.ofList_toList (s := encode (front ++ last)), Utf8.encode_ofList_ascii hascii, hchars,
    List.map_append, List.map_map]
  have hbody := sextets_length front
  have htail := encodeGroups_lastGroup_length hlast₁ hlast₃ k
  rw [decode_append_lastGroup .strict (by simp [hbody]) (by simpa using htail),
    List.length_map, groupValues_symbols sextets_lt, decodeTail_lastGroup hlast₁ hlast₃]
  simp [bind, Except.bind, pure, Except.pure, groupBytes_sextets hfront]

end Base64

end LayeredConfig
