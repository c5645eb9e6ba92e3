import Mathlib.Logic.Relation
import LayeredConfig.Proofs.Stores
import LayeredConfig.Directive.Resolve

/-! The steps by which resolving directives may change a machine. Reading a
secret file is the only operation that writes: it draws random bytes and may
create a new file holding them in hex; each such read is one `SecretStep`. Along
these steps the environment stays, a pattern source of random bytes too, and
every file keeps its text. -/

namespace LayeredConfig

namespace Hex

def lowerDigits : List Char := "0123456789abcdef".toList

theorem toList_encode (bytes : List UInt8) :
    (encode bytes).toList = bytes.flatMap fun b => [digitChar (b.toNat / 16), digitChar (b.toNat % 16)] := by
  simp [encode]

theorem length_encode (bytes : List UInt8) : (encode bytes).length = 2 * bytes.length := by
  rw [← String.length_toList, toList_encode]
  induction bytes with
  | nil => rfl
  | cons b rest ih => simp [ih]; omega

theorem digitChar_mem : ∀ n, n < 16 → digitChar n ∈ lowerDigits := by decide

theorem mem_encode {bytes : List UInt8} {c : Char} (h : c ∈ (encode bytes).toList) : c ∈ lowerDigits := by
  rw [toList_encode, List.mem_flatMap] at h
  obtain ⟨b, -, hc⟩ := h
  have hb := b.toNat_lt
  simp only [List.mem_cons, List.not_mem_nil, or_false] at hc
  rcases hc with rfl | rfl
  · exact digitChar_mem _ (by omega)
  · exact digitChar_mem _ (by omega)

end Hex

namespace RandomSource

theorem length_generate (k : Nat) (s : UInt64) : (generate k s).1.length = 8 * k := by
  induction k generalizing s with
  | zero => rfl
  | succ k ih => simp [generate, ih]; omega

theorem length_fill (src : RandomSource) (n : Nat) : (src.fill n).1.length = n := by
  unfold fill
  split
  · simp
  · simp
  · simp only [List.length_take, length_generate]
    omega

/-- A pattern gives its bytes over and over, or zeros when it is empty, and stays. -/
theorem fill_pattern (bs : List UInt8) (n : Nat) :
    (pattern bs).fill n = ((List.range n).map fun i => bs.getD (i % bs.length) 0, pattern bs) := by
  cases bs with
  | nil => simp [fill, List.map_const']
  | cons b bs => rfl

end RandomSource

namespace Machine

/-- What one secret-file read may do to a machine: draw `n` random bytes and, at
a path that had no file, write them in hex as a new file. -/
inductive SecretStep : Machine → Machine → Prop
  | draw (w : Machine) {n : Nat} (hn : n ≤ maxSecretBytes) :
      SecretStep w { w with random := (w.random.fill n).2 }
  | create (w : Machine) {n : Nat} (hn : n ≤ maxSecretBytes) {path : String} {store : Store}
      (hcreate : w.store.createNew path (Utf8.encode (Hex.encode (w.random.fill n).1)) = .ok store) :
      SecretStep w { w with store := store, random := (w.random.fill n).2 }

/-- The machines a run may lead to: those reached by secret-file steps. -/
def Steps : Machine → Machine → Prop := Relation.ReflTransGen SecretStep

theorem Steps.refl (w : Machine) : Steps w w := Relation.ReflTransGen.refl

theorem Steps.trans {a b c : Machine} (h₁ : Steps a b) (h₂ : Steps b c) : Steps a c :=
  Relation.ReflTransGen.trans h₁ h₂

theorem SecretStep.steps {w w' : Machine} (h : SecretStep w w') : Steps w w' :=
  Relation.ReflTransGen.single h

theorem SecretStep.env {w w' : Machine} (h : SecretStep w w') : w'.env = w.env := by
  cases h <;> rfl

theorem SecretStep.inMemory {w w' : Machine} (h : SecretStep w w') (hw : w.store.InMemory) :
    w'.store.InMemory := by
  cases h with
  | draw => exact hw
  | create _ hcreate => exact (Store.createNew_ok hw hcreate).1 ▸ hw.append _

theorem SecretStep.random_pattern {w w' : Machine} (h : SecretStep w w') {bs : List UInt8}
    (hw : w.random = .pattern bs) : w'.random = .pattern bs := by
  cases h <;> simp [hw, RandomSource.fill_pattern]

theorem Steps.env {w w' : Machine} (h : Steps w w') : w'.env = w.env := by
  induction h with
  | refl => rfl
  | tail _ hstep ih => rw [hstep.env, ih]

theorem Steps.inMemory {w w' : Machine} (h : Steps w w') (hw : w.store.InMemory) : w'.store.InMemory := by
  induction h with
  | refl => exact hw
  | tail _ hstep ih => exact hstep.inMemory ih

theorem Steps.random_pattern {w w' : Machine} (h : Steps w w') {bs : List UInt8}
    (hw : w.random = .pattern bs) : w'.random = .pattern bs := by
  induction h with
  | refl => exact hw
  | tail _ hstep ih => exact hstep.random_pattern ih

theorem SecretStep.covers {w w' : Machine} (h : SecretStep w w') : w.store.Covers w'.store := by
  cases h with
  | draw => exact Store.Covers.refl _
  | create _ hcreate => exact Store.covers_createNew hcreate

theorem Steps.covers {w w' : Machine} (h : Steps w w') : w.store.Covers w'.store := by
  induction h with
  | refl => exact Store.Covers.refl _
  | tail _ hstep ih => exact ih.trans hstep.covers

theorem Steps.readText {w w' : Machine} (h : Steps w w') {path text : String}
    (hw : w.store.readText path = .ok text) : w'.store.readText path = .ok text :=
  h.covers.readText path text hw

end Machine

end LayeredConfig
