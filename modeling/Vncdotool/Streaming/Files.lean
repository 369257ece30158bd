import Mathlib.Data.List.Nodup
import Mathlib.Logic.Function.Basic

/-!
# Files — text files opened for writing

A file object buffers what is written to it, and has a position of its own at which a flush puts the
buffer.  Opening a path truncates it, so two file objects of one path overwrite each other;
`Exclusive` says that there are no two, and then what a file object `Holds`, the contents of its path
followed by its buffer, is what was written to it: the operations change it as one expects, and
leave what every other file object holds alone.
-/

namespace Streaming

variable {π α : Type*}

/-- A file object. -/
structure OpenFile (π α : Type*) where
  path : π
  pos : ℕ := 0
  buffer : List α := []
  closed : Bool := false
  deriving DecidableEq, Repr

/-- What the paths hold, and the file objects in the order of their opening. -/
structure Files (π α : Type*) where
  disk : π → List α
  opened : List (OpenFile π α) := []

/-- Put `data` at `pos`; a gap before it is filled up. -/
def overwrite (fill : α) (old : List α) (pos : ℕ) (data : List α) : List α :=
  old.take pos ++ List.replicate (pos - old.length) fill ++ data ++ old.drop (pos + data.length)

@[simp] theorem overwrite_length (fill : α) (old data : List α) :
    overwrite fill old old.length data = old ++ data := by
  simp [overwrite]

/-! ## Entries of a list that has changed at one place -/

theorem getElem?_set_cases {l : List α} {a b : α} {i j : ℕ} (h : (l.set i a)[j]? = some b) :
    (j = i ∧ b = a) ∨ (j ≠ i ∧ l[j]? = some b) := by
  by_cases hij : i = j
  · subst hij
    have hlt : i < (l.set i a).length := (List.getElem?_eq_some_iff.1 h).1
    rw [List.length_set] at hlt
    rw [List.getElem?_set_self hlt] at h
    exact Or.inl ⟨rfl, (Option.some.inj h).symm⟩
  · rw [List.getElem?_set_ne hij] at h
    exact Or.inr ⟨Ne.symm hij, h⟩

theorem getElem?_concat_cases {l : List α} {a b : α} {j : ℕ} (h : (l ++ [a])[j]? = some b) :
    (j = l.length ∧ b = a) ∨ (j < l.length ∧ l[j]? = some b) := by
  rcases Nat.lt_or_ge j l.length with hlt | hge
  · rw [List.getElem?_append_left hlt] at h
    exact Or.inr ⟨hlt, h⟩
  · rw [List.getElem?_append_right hge, List.getElem?_singleton] at h
    split_ifs at h with hzero
    exact Or.inl ⟨Nat.le_antisymm (Nat.sub_eq_zero_iff_le.1 hzero) hge, (Option.some.inj h).symm⟩

namespace Files

/-! ## Operations -/

section Operations

variable [DecidableEq π]

/-- `open(path, "w")`; the new file object is the last one. -/
def openW (fs : Files π α) (path : π) : Files π α where
  disk := Function.update fs.disk path []
  opened := fs.opened ++ [{ path := path }]

/-- `f.write(data)`; `none` when the file object is closed. -/
def write (fs : Files π α) (f : ℕ) (data : List α) : Option (Files π α) :=
  match fs.opened[f]? with
  | none => none
  | some file =>
      if file.closed then none
      else some { fs with opened := fs.opened.set f { file with buffer := file.buffer ++ data } }

/-- The buffer goes out to the disk. -/
def flush (fill : α) (fs : Files π α) (f : ℕ) : Files π α :=
  match fs.opened[f]? with
  | none => fs
  | some file =>
      { disk :=
          Function.update fs.disk file.path
            (overwrite fill (fs.disk file.path) file.pos file.buffer)
        opened :=
          fs.opened.set f
            { file with pos := file.pos + file.buffer.length, buffer := [] } }

def markClosed (fs : Files π α) (f : ℕ) : Files π α :=
  match fs.opened[f]? with
  | none => fs
  | some file => { fs with opened := fs.opened.set f { file with closed := true } }

/-- `f.close()`. -/
def close (fill : α) (fs : Files π α) (f : ℕ) : Files π α :=
  (fs.flush fill f).markClosed f

end Operations

/-! ## Exclusive file objects -/

/-- No two file objects share a path, and each stands at the end of its file. -/
structure Exclusive (fs : Files π α) : Prop where
  nodup : (fs.opened.map OpenFile.path).Nodup
  placed : ∀ file ∈ fs.opened, file.pos = (fs.disk file.path).length
  flushed : ∀ file ∈ fs.opened, file.closed = true → file.buffer = []

/-- `written` is what has been written to a file object, on the disk or not. -/
structure Holds (fs : Files π α) (f : ℕ) (closed : Bool) (written : List α) : Prop where
  intro ::
  exists_file : ∃ file, fs.opened[f]? = some file ∧ file.closed = closed ∧
    fs.disk file.path ++ file.buffer = written

theorem exclusive_nil (disk : π → List α) : ({ disk := disk } : Files π α).Exclusive :=
  ⟨List.nodup_nil, (fun _ hmem => nomatch hmem), fun _ hmem => nomatch hmem⟩

section Rules

variable {fs fs' : Files π α} {f g : ℕ} {file other : OpenFile π α} {closed closed' : Bool}
  {written written' : List α}

/-- File objects with the same path are the same. -/
theorem Exclusive.index_eq (h : fs.Exclusive) (hf : fs.opened[f]? = some file)
    (hg : fs.opened[g]? = some other) (hpath : file.path = other.path) : f = g := by
  have hf' : (fs.opened.map OpenFile.path)[f]? = some file.path := by simp [hf]
  have hg' : (fs.opened.map OpenFile.path)[g]? = some file.path := by simp [hg, hpath]
  have hlt : f < (fs.opened.map OpenFile.path).length := (List.getElem?_eq_some_iff.1 hf').1
  exact (List.getElem?_inj hlt h.nodup).1 (hf'.trans hg'.symm)

theorem Holds.unique (h : fs.Holds f closed written) (h' : fs.Holds f closed' written') :
    closed = closed' ∧ written = written' := by
  rcases h with ⟨file, hf, rfl, rfl⟩
  rcases h' with ⟨file', hf', rfl, rfl⟩
  cases hf.symm.trans hf'
  exact ⟨rfl, rfl⟩

theorem map_path_set {l : List (OpenFile π α)} (hf : l[f]? = some file)
    (hpath : other.path = file.path) :
    (l.set f other).map OpenFile.path = l.map OpenFile.path := by
  rw [List.map_set, hpath]
  have hf' : (l.map OpenFile.path)[f]? = some file.path := by simp [hf]
  rcases List.getElem?_eq_some_iff.1 hf' with ⟨hlt, heq⟩
  exact heq ▸ List.set_getElem_self hlt

/-- Replacing a file object by one of the same path keeps the file objects exclusive. -/
theorem Exclusive.set (h : fs.Exclusive) (hf : fs.opened[f]? = some file)
    (hpath : other.path = file.path) (hplaced : other.pos = (fs.disk file.path).length)
    (hflushed : other.closed = true → other.buffer = []) :
    ({ fs with opened := fs.opened.set f other } : Files π α).Exclusive := by
  refine ⟨?_, ?_, ?_⟩
  · exact (map_path_set hf hpath).symm ▸ h.nodup
  · intro file' hmem
    rcases List.mem_or_eq_of_mem_set hmem with hmem | rfl
    · exact h.placed file' hmem
    · exact hpath.symm ▸ hplaced
  · intro file' hmem hclosed
    rcases List.mem_or_eq_of_mem_set hmem with hmem | rfl
    · exact h.flushed file' hmem hclosed
    · exact hflushed hclosed

/-! ## Writing -/

/-- An open file object takes what is written to it, and no other one changes. -/
theorem Exclusive.write (h : fs.Exclusive) (hholds : fs.Holds f false written) (data : List α) :
    ∃ fs', fs.write f data = some fs' ∧ fs'.Exclusive ∧
      fs'.opened.length = fs.opened.length ∧ fs'.opened.map OpenFile.path = fs.opened.map OpenFile.path ∧
      fs'.Holds f false (written ++ data) ∧
      ∀ g closed' written', g ≠ f → fs.Holds g closed' written' → fs'.Holds g closed' written' := by
  rcases hholds with ⟨file, hf, hclosed, rfl⟩
  have hlt : f < fs.opened.length := (List.getElem?_eq_some_iff.1 hf).1
  refine ⟨{ fs with opened := fs.opened.set f { file with buffer := file.buffer ++ data } },
    ?_, ?_, ?_, ?_, ?_, ?_⟩
  · simp [Files.write, hf, hclosed]
  · refine h.set hf rfl (h.placed file (List.mem_of_getElem? hf)) fun htrue => ?_
    exact absurd (hclosed.symm.trans htrue) (by decide)
  · exact List.length_set
  · exact map_path_set hf rfl
  · exact ⟨⟨_, List.getElem?_set_self hlt, hclosed, by simp⟩⟩
  · rintro g closed' written' hne ⟨other, hg, hclosed', hwritten'⟩
    exact ⟨⟨other, by simpa [List.getElem?_set_ne (Ne.symm hne)] using hg, hclosed', hwritten'⟩⟩

variable [DecidableEq π] {path : π} {fill : α}

/-! ## Opening -/

@[simp] theorem opened_openW : (fs.openW path).opened = fs.opened ++ [{ path := path }] := rfl

/-- Opening a path that no file object has. -/
theorem Exclusive.openW (h : fs.Exclusive) (hpath : path ∉ fs.opened.map OpenFile.path) :
    (fs.openW path).Exclusive ∧ (fs.openW path).Holds fs.opened.length false [] ∧
      ∀ g closed' written', fs.Holds g closed' written' →
        (fs.openW path).Holds g closed' written' := by
  have hother {file : OpenFile π α} (hmem : file ∈ fs.opened) :
      (fs.openW path).disk file.path = fs.disk file.path := by
    have hne : file.path ≠ path := fun heq => hpath (heq ▸ List.mem_map_of_mem hmem)
    exact Function.update_of_ne hne _ _
  have hself : (fs.openW path).disk path = [] := Function.update_self _ _ _
  refine ⟨⟨?_, ?_, ?_⟩, ⟨⟨{ path := path }, by simp, rfl, by simp [hself]⟩⟩, ?_⟩
  · rw [opened_openW, List.map_append, List.nodup_append]
    refine ⟨h.nodup, by simp, ?_⟩
    intro a ha b hb heq
    have hsame : a = path := heq.trans (List.mem_singleton.1 hb)
    exact hpath (hsame ▸ ha)
  · intro file hmem
    rw [opened_openW, List.mem_append, List.mem_singleton] at hmem
    rcases hmem with hmem | rfl
    · rw [hother hmem]
      exact h.placed file hmem
    · simp [hself]
  · intro file hmem hclosed
    rw [opened_openW, List.mem_append, List.mem_singleton] at hmem
    rcases hmem with hmem | rfl
    · exact h.flushed file hmem hclosed
    · rfl
  · rintro g closed' written' ⟨file, hg, hclosed', hwritten'⟩
    have hlt : g < fs.opened.length := (List.getElem?_eq_some_iff.1 hg).1
    refine ⟨⟨file, ?_, hclosed', ?_⟩⟩
    · rw [opened_openW, List.getElem?_append_left hlt]
      exact hg
    · rw [hother (List.mem_of_getElem? hg)]
      exact hwritten'

/-! ## Flushing and closing -/

/-- What a flush of an exclusive file object does. -/
theorem Exclusive.flush_eq (h : fs.Exclusive) (hf : fs.opened[f]? = some file) :
    fs.flush fill f =
      { disk := Function.update fs.disk file.path (fs.disk file.path ++ file.buffer)
        opened :=
          fs.opened.set f { file with pos := file.pos + file.buffer.length, buffer := [] } } := by
  have hplaced : file.pos = (fs.disk file.path).length :=
    h.placed file (List.mem_of_getElem? hf)
  simp only [Files.flush, hf, hplaced, overwrite_length]

/-- A flush is visible to nobody. -/
theorem Exclusive.flush (h : fs.Exclusive) (fill : α) (f : ℕ) :
    (fs.flush fill f).Exclusive ∧ (fs.flush fill f).opened.length = fs.opened.length ∧
      (fs.flush fill f).opened.map OpenFile.path = fs.opened.map OpenFile.path ∧
      ∀ g closed' written', fs.Holds g closed' written' →
        (fs.flush fill f).Holds g closed' written' := by
  cases hf : fs.opened[f]? with
  | none =>
      have hsame : fs.flush fill f = fs := by simp [Files.flush, hf]
      rw [hsame]
      exact ⟨h, rfl, rfl, fun _ _ _ hholds => hholds⟩
  | some file =>
      have hlt : f < fs.opened.length := (List.getElem?_eq_some_iff.1 hf).1
      -- The other files have other paths, so what they have on the disk stays.
      have hother {g : ℕ} {other : OpenFile π α} (hne : f ≠ g) (hg : fs.opened[g]? = some other)
          (contents : List α) :
          Function.update fs.disk file.path contents other.path = fs.disk other.path :=
        Function.update_of_ne (fun heq => hne (h.index_eq hf hg heq.symm)) _ _
      rw [h.flush_eq hf]
      refine ⟨⟨?_, ?_, ?_⟩, List.length_set, map_path_set hf rfl, ?_⟩
      · have hpaths : (fs.opened.set f
            { file with pos := file.pos + file.buffer.length, buffer := [] }).map OpenFile.path =
            fs.opened.map OpenFile.path := map_path_set hf rfl
        exact hpaths.symm ▸ h.nodup
      · intro file' hmem'
        rcases List.mem_iff_getElem?.1 hmem' with ⟨g, hg⟩
        by_cases hfg : f = g
        · subst hfg
          rw [List.getElem?_set_self hlt] at hg
          cases hg
          simp [h.placed file (List.mem_of_getElem? hf)]
        · rw [List.getElem?_set_ne hfg] at hg
          dsimp only
          rw [hother hfg hg]
          exact h.placed file' (List.mem_of_getElem? hg)
      · intro file' hmem' hclosed
        rcases List.mem_or_eq_of_mem_set hmem' with hmem' | rfl
        · exact h.flushed file' hmem' hclosed
        · rfl
      · rintro g closed' written' ⟨other, hg, hclosed', hwritten'⟩
        by_cases hfg : f = g
        · subst hfg
          cases hf.symm.trans hg
          exact ⟨⟨_, List.getElem?_set_self hlt, hclosed', by simpa using hwritten'⟩⟩
        · refine ⟨⟨other, ?_, hclosed', ?_⟩⟩
          · rw [List.getElem?_set_ne hfg]
            exact hg
          · dsimp only
            rw [hother hfg hg]
            exact hwritten'

/-- Closing a file object writes it out, and no other one changes. -/
theorem Exclusive.close (h : fs.Exclusive) (fill : α) (hholds : fs.Holds f closed written) :
    (fs.close fill f).Exclusive ∧ (fs.close fill f).opened.length = fs.opened.length ∧
      (fs.close fill f).opened.map OpenFile.path = fs.opened.map OpenFile.path ∧
      (fs.close fill f).Holds f true written ∧
      ∀ g closed' written', g ≠ f → fs.Holds g closed' written' →
        (fs.close fill f).Holds g closed' written' := by
  rcases h.flush fill f with ⟨hexclusive, hlength, hpaths, hframe⟩
  rcases hholds with ⟨file, hf, hclosed, hwritten⟩
  rcases hframe f closed written ⟨file, hf, hclosed, hwritten⟩ with ⟨file', hf', hclosed', hwritten'⟩
  have hlt : f < (fs.flush fill f).opened.length := (List.getElem?_eq_some_iff.1 hf').1
  have hbuffer : file'.buffer = [] := by
    have hlt' : f < fs.opened.length := hlength ▸ hlt
    rw [h.flush_eq hf, List.getElem?_set_self hlt'] at hf'
    cases hf'
    rfl
  have hclose : fs.close fill f =
      { fs.flush fill f with opened := (fs.flush fill f).opened.set f { file' with closed := true } } := by
    simp [Files.close, markClosed, hf']
  have hpaths' : ((fs.flush fill f).opened.set f { file' with closed := true }).map OpenFile.path =
      (fs.flush fill f).opened.map OpenFile.path := map_path_set hf' rfl
  rw [hclose]
  refine ⟨?_, List.length_set.trans hlength, hpaths'.trans hpaths, ?_, ?_⟩
  · exact hexclusive.set hf' rfl (hexclusive.placed file' (List.mem_of_getElem? hf')) fun _ => hbuffer
  · exact ⟨⟨_, List.getElem?_set_self hlt, rfl, hwritten'⟩⟩
  · intro g closed'' written'' hne hg
    rcases hframe g closed'' written'' hg with ⟨other, hg', hclosed'', hwritten''⟩
    exact ⟨⟨other, by simpa [List.getElem?_set_ne (Ne.symm hne)] using hg', hclosed'', hwritten''⟩⟩

end Rules

end Files

end Streaming
