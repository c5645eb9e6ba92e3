import Mathlib.Tactic.SplitIfs
import LayeredConfig.Proofs.Codecs
import LayeredConfig.Host.Machine

/-! What creating a file does to a store. On every kind of store, files already
there are read the same afterwards and the new file reads back as the text it
was written from. A store kept in memory (any but a disk) appends the new file
after the others, at a path that had none; a disk places it where its path
leads, and its lookups that succeed only consult directories, which a new file
does not change. -/

namespace LayeredConfig

namespace Disk

def addFile (d : Disk) (f : List String × List UInt8) : Disk := { d with files := d.files ++ [f] }

@[simp] theorem isDir_addFile (d : Disk) (f : List String × List UInt8) : (d.addFile f).isDir = d.isDir := rfl

theorem walk_of_isDir {d d' : Disk} (hdir : d'.isDir = d.isDir) {dir parts : List String} {t : Target}
    (h : d.walk dir parts = .ok t) : d'.walk dir parts = .ok t := by
  induction parts generalizing dir with
  | nil => simpa [walk] using h
  | cons part rest ih =>
    unfold walk at h ⊢
    rw [hdir]
    dsimp only at h ⊢
    split_ifs at h ⊢ <;> first | exact ih h | exact h

theorem target_of_isDir {d d' : Disk} (hdir : d'.isDir = d.isDir) (hwork : d'.workdir = d.workdir)
    {path : String} {t : Target} (h : d.target path = .ok t) : d'.target path = .ok t := by
  unfold target at h ⊢
  rw [hwork]
  split_ifs at h ⊢ <;> exact walk_of_isDir hdir h

theorem fileAt?_addFile_of_some {d : Disk} {p : List String} {bytes : List UInt8} (h : d.fileAt? p = some bytes)
    (f : List String × List UInt8) : (d.addFile f).fileAt? p = some bytes := by
  simp only [fileAt?, addFile, Option.map_eq_some_iff] at h ⊢
  obtain ⟨g, hg, rfl⟩ := h
  exact ⟨g, by simp [List.find?_append, hg], rfl⟩

theorem fileAt?_addFile_self {d : Disk} {p : List String} (h : d.fileAt? p = none) (bytes : List UInt8) :
    (d.addFile (p, bytes)).fileAt? p = some bytes := by
  simp only [fileAt?, addFile, Option.map_eq_none_iff] at h ⊢
  simp [List.find?_append, h]

theorem readText_addFile {d : Disk} {path text : String} (h : d.readText path = .ok text)
    (f : List String × List UInt8) : (d.addFile f).readText path = .ok text := by
  unfold readText at h ⊢
  cases ht : d.target path with
  | error e => rw [ht] at h; cases h
  | ok tg =>
    rw [ht] at h
    rw [target_of_isDir (isDir_addFile d f) rfl ht]
    obtain ⟨dir, last, trailing⟩ := tg
    cases last with
    | none => cases h
    | some n =>
      dsimp only at h ⊢
      rw [isDir_addFile]
      cases hf : d.fileAt? (dir ++ [n]) with
      | none => by_cases hd : d.isDir (dir ++ [n]) <;> simp [hf, hd] at h
      | some bytes =>
        rw [hf] at h
        rw [fileAt?_addFile_of_some hf]
        exact h

/-- A new file is created at the place its path leads to, where there was
neither a file nor a directory. -/
theorem createNew_eq {d d' : Disk} {path : String} {bytes : List UInt8} (h : d.createNew path bytes = .ok d') :
    ∃ dir n, d.target path = .ok ⟨dir, some n, false⟩ ∧ d.isDir (dir ++ [n]) = false ∧
      d.fileAt? (dir ++ [n]) = none ∧ d' = d.addFile (dir ++ [n], bytes) := by
  unfold createNew at h
  split at h
  · cases h
  · cases h
  · rename_i dir n trailing ht
    dsimp only at h
    split_ifs at h with htrail hthere
    cases h
    simp only [Bool.or_eq_true, not_or, Bool.not_eq_true, Option.isSome_eq_false_iff, Option.isNone_iff_eq_none] at hthere
    simp only [Bool.not_eq_true] at htrail
    exact ⟨dir, n, htrail ▸ ht, hthere.1, hthere.2, rfl⟩

theorem readText_createNew {d d' : Disk} {path : String} {bytes : List UInt8} (h : d.createNew path bytes = .ok d')
    {q text : String} (hq : d.readText q = .ok text) : d'.readText q = .ok text := by
  obtain ⟨dir, n, -, -, -, rfl⟩ := createNew_eq h
  exact readText_addFile hq _

theorem readText_createNew_self {d d' : Disk} {path text : String}
    (h : d.createNew path (Utf8.encode text) = .ok d') : d'.readText path = .ok text := by
  obtain ⟨dir, n, ht, hdir, hfile, rfl⟩ := createNew_eq h
  unfold readText
  rw [target_of_isDir (isDir_addFile d _) rfl ht]
  dsimp only
  rw [isDir_addFile, hdir, fileAt?_addFile_self hfile]
  simp [Utf8.decode_encode]

theorem pathExists_of_readText {d : Disk} {path text : String} (h : d.readText path = .ok text) :
    d.pathExists path = true := by
  unfold readText at h
  unfold pathExists
  split at h
  · cases h
  · cases h
  · rename_i dir n trailing ht
    dsimp only at h
    cases hf : d.fileAt? (dir ++ [n]) with
    | none => by_cases hd : d.isDir (dir ++ [n]) <;> simp [hf, hd] at h
    | some bytes =>
      cases trailing with
      | true => by_cases hd : d.isDir (dir ++ [n]) <;> simp [hf, hd] at h
      | false => simp

/-- Whether creating a file fails, and how, does not depend on its contents. -/
theorem createNew_error_congr {d : Disk} {path : String} {bytes : List UInt8} {e : IoError}
    (h : d.createNew path bytes = .error e) (bytes' : List UInt8) : d.createNew path bytes' = .error e := by
  cases ht : d.target path with
  | error e' => simpa [createNew, ht] using h
  | ok tg =>
    obtain ⟨dir, last, trailing⟩ := tg
    cases last with
    | none => simpa [createNew, ht] using h
    | some n =>
      simp only [createNew, ht] at h ⊢
      split_ifs at h ⊢ <;> exact h

end Disk

namespace Store

/-- Files added after those of a store kept in memory; a disk is left as it is. -/
def append : Store → List (String × String) → Store
  | .exact files dirs hidden, more => .exact (files ++ more) dirs hidden
  | .keyed files, more => .keyed (files ++ more)
  | .disk d, _ => .disk d

@[simp] theorem append_nil (s : Store) : s.append [] = s := by
  cases s <;> simp [append]

theorem append_append (s : Store) (a b : List (String × String)) :
    (s.append a).append b = s.append (a ++ b) := by
  cases s <;> simp [append]

/-- A store that keeps its files in memory: any but a disk. -/
def InMemory : Store → Prop
  | .disk _ => False
  | _ => True

theorem InMemory.append {s : Store} (h : s.InMemory) (more : List (String × String)) :
    (s.append more).InMemory := by
  cases s <;> trivial

theorem readText_append {s : Store} {path text : String} (h : s.readText path = .ok text)
    (more : List (String × String)) : (s.append more).readText path = .ok text := by
  cases s with
  | exact files dirs hidden =>
    simp only [readText] at h ⊢
    split at h
    · rename_i f hf
      simp [append, List.find?_append, hf, h]
    · cases h
  | keyed files =>
    simp only [readText, keyedGet?] at h ⊢
    cases hf : files.find? (fun f => Path.same f.1 path) with
    | none => simp [hf] at h
    | some f =>
      simp only [hf, Option.map_some] at h
      simp [append, List.find?_append, hf, h]
  | disk d => exact h

/-- Creating a file in memory adds it after the others, at a path that had no
file, and it reads back as the text written. -/
theorem createNew_ok {s s' : Store} (hs : s.InMemory) {path text : String}
    (h : s.createNew path (Utf8.encode text) = .ok s') :
    s' = s.append [(path, text)] ∧ (∀ t, s.readText path ≠ .ok t) ∧ s'.readText path = .ok text := by
  cases s with
  | exact files dirs hidden =>
    simp only [createNew, Utf8.decode_encode] at h
    split_ifs at h with hparent hany
    · cases h
      have hnone : files.find? (·.1 == path) = none :=
        List.find?_eq_none.2 fun f hf hf' => hany (List.any_eq_true.2 ⟨f, hf, by simpa using hf'⟩)
      exact ⟨rfl, fun t => by simp [readText, hnone], by simp [readText, List.find?_append, hnone]⟩
  | keyed files =>
    simp only [createNew, Utf8.decode_encode] at h
    split at h
    · cases h
    · rename_i hsome
      cases h
      have hnone : files.find? (fun f => Path.same f.1 path) = none := by simpa [keyedGet?] using hsome
      refine ⟨rfl, fun t => by simp [readText, keyedGet?, hnone], ?_⟩
      have hself : Path.same path path = true := by simp [Path.same]
      simp [readText, keyedGet?, List.find?_append, hnone, hself]
  | disk d => exact hs.elim


theorem readText_createNew {s s' : Store} {path text : String} (h : s.createNew path (Utf8.encode text) = .ok s')
    {q t : String} (hq : s.readText q = .ok t) : s'.readText q = .ok t := by
  cases s with
  | exact files dirs hidden =>
    rw [(createNew_ok (s := .exact files dirs hidden) trivial h).1]
    exact readText_append hq _
  | keyed files =>
    rw [(createNew_ok (s := .keyed files) trivial h).1]
    exact readText_append hq _
  | disk d =>
    cases hd : d.createNew path (Utf8.encode text) with
    | error e => simp [createNew, hd, Except.map] at h
    | ok d' =>
      simp only [createNew, hd, Except.map, Except.ok.injEq] at h
      subst h
      exact Disk.readText_createNew hd hq

theorem readText_createNew_self {s s' : Store} {path text : String}
    (h : s.createNew path (Utf8.encode text) = .ok s') : s'.readText path = .ok text := by
  cases s with
  | exact files dirs hidden => exact (createNew_ok (s := .exact files dirs hidden) trivial h).2.2
  | keyed files => exact (createNew_ok (s := .keyed files) trivial h).2.2
  | disk d =>
    cases hd : d.createNew path (Utf8.encode text) with
    | error e => simp [createNew, hd, Except.map] at h
    | ok d' =>
      simp only [createNew, hd, Except.map, Except.ok.injEq] at h
      subst h
      exact Disk.readText_createNew_self hd

/-! ### Stores that hold at least the files of another -/

/-- Two stores of one kind and layout: exact stores with the same directories
and the same hidden paths, two keyed stores, or two disks. -/
def SameLayout : Store → Store → Prop
  | .exact _ dirs hidden, .exact _ dirs' hidden' => dirs = dirs' ∧ hidden = hidden'
  | .keyed _, .keyed _ => True
  | .disk _, .disk _ => True
  | _, _ => False

theorem SameLayout.refl (s : Store) : s.SameLayout s := by
  cases s <;> simp [SameLayout]

theorem SameLayout.trans {a b c : Store} (h₁ : a.SameLayout b) (h₂ : b.SameLayout c) : a.SameLayout c := by
  cases a <;> cases b <;> cases c <;> simp_all [SameLayout]

theorem sameLayout_createNew {s s' : Store} {path text : String}
    (h : s.createNew path (Utf8.encode text) = .ok s') : s.SameLayout s' := by
  cases s with
  | exact files dirs hidden =>
    rw [(createNew_ok (s := .exact files dirs hidden) trivial h).1]
    simp [append, SameLayout]
  | keyed files =>
    rw [(createNew_ok (s := .keyed files) trivial h).1]
    simp [append, SameLayout]
  | disk d =>
    cases hd : d.createNew path (Utf8.encode text) with
    | error e => simp [createNew, hd, Except.map] at h
    | ok d' =>
      simp only [createNew, hd, Except.map, Except.ok.injEq] at h
      subst h
      trivial

/-- `s'` holds every file of `s` with its text, in the same layout. -/
structure Covers (s s' : Store) : Prop where
  layout : s.SameLayout s'
  readText : ∀ path text, s.readText path = .ok text → s'.readText path = .ok text

theorem Covers.refl (s : Store) : s.Covers s := ⟨SameLayout.refl s, fun _ _ h => h⟩

theorem Covers.trans {a b c : Store} (h₁ : a.Covers b) (h₂ : b.Covers c) : a.Covers c :=
  ⟨h₁.layout.trans h₂.layout, fun p t h => h₂.readText p t (h₁.readText p t h)⟩

theorem covers_createNew {s s' : Store} {path text : String} (h : s.createNew path (Utf8.encode text) = .ok s') :
    s.Covers s' :=
  ⟨sameLayout_createNew h, fun _ _ hq => readText_createNew h hq⟩

/-- Whether creating a file fails, and how, does not depend on the text written. -/
theorem createNew_error_congr {s : Store} {path t₁ : String} {e : IoError}
    (h : s.createNew path (Utf8.encode t₁) = .error e) (t₂ : String) :
    s.createNew path (Utf8.encode t₂) = .error e := by
  cases s with
  | exact files dirs hidden =>
    simp only [createNew, Utf8.decode_encode] at h ⊢
    split_ifs at h ⊢ <;> exact h
  | keyed files =>
    simp only [createNew, Utf8.decode_encode] at h ⊢
    split_ifs at h ⊢
    exact h
  | disk d =>
    cases hd : d.createNew path (Utf8.encode t₁) with
    | ok d' => simp [createNew, hd, Except.map] at h
    | error e' =>
      simp only [createNew, hd, Except.map, Except.error.injEq] at h
      subst h
      simp [createNew, Disk.createNew_error_congr hd, Except.map]

/-- A secret file's second read. When a store holds a file, a store of the same
layout on which reading a secret there did not fail at creating it either sees
the file, or fails to create it because it is already there: only an exact
store hides a file, and creating a hidden one fails only for a missing parent
directory, which the first store would have failed on too. -/
theorem exists_or_alreadyExists {s s' : Store} (hlayout : s.SameLayout s') {path t : String}
    (hread : s'.readText path = .ok t) {t₁ : String}
    (hfirst : s.pathExists path = false → ∀ e, s.createNew path (Utf8.encode t₁) = .error e →
      e.kind = .alreadyExists)
    (t₂ : String) :
    s'.pathExists path = true ∨ ∃ e, s'.createNew path (Utf8.encode t₂) = .error e ∧ e.kind = .alreadyExists := by
  cases s' with
  | keyed files' =>
    left
    simp only [readText] at hread
    simp only [pathExists]
    split at hread
    · rename_i text htext
      simp [htext]
    · cases hread
  | disk d' => exact .inl (Disk.pathExists_of_readText hread)
  | exact files' dirs' hidden' =>
    cases s with
    | keyed _ | disk _ => exact hlayout.elim
    | exact files dirs hidden =>
      obtain ⟨rfl, rfl⟩ := hlayout
      have hany : files'.any (·.1 == path) = true := by
        simp only [readText] at hread
        split at hread
        · rename_i f hf
          have hkey := List.find?_some hf
          exact List.any_eq_true.2 ⟨f, List.mem_of_find?_eq_some hf, hkey⟩
        · cases hread
      by_cases hhidden : hidden.contains path = true
      · right
        have hcreate := hfirst (by simp only [pathExists, hhidden, Bool.not_true, Bool.and_false])
        refine ⟨alreadyExists, ?_, rfl⟩
        cases dirs with
        | none => simp [createNew, hany]
        | some ds =>
          by_cases hparent : (Path.parent? path).getD "" ∈ ds
          · simp [createNew, hany, hparent]
          · exact absurd (hcreate notFound (by simp [createNew, hparent])) (by decide)
      · left
        simp only [pathExists, hany, Bool.true_and, Bool.not_eq_true', Bool.not_eq_true] at hhidden ⊢
        exact hhidden

end Store

end LayeredConfig
