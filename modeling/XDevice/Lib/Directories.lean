import XDevice.Lib.Names
/-!
# Directories that are made

`mkdir` adds one directory where there is neither a directory nor a file, and says that
something exists in both other cases. Which of the two it met is the difference between a
path that is there and a path that is in the way.
-/

namespace Lib.Posix.Fs

/-! ## Paths -/

/-- A path is a name, a name below the root, or a name below a path. -/
theorem path_induction {P : Path → Prop} (name : ∀ n, slash ∉ n → P n) (root : ∀ n, slash ∉ n → P (slash :: n))
    (below : ∀ s n, s ≠ [] → slash ∉ n → P s → P (s ++ slash :: n)) (path : Path) : P path := by
  induction hlen : path.length using Nat.strong_induction_on generalizing path with
  | _ k ih =>
    by_cases hmem : slash ∈ path
    · -- the last slash is the first one from behind
      obtain ⟨as, bs, hrev, has⟩ := List.eq_append_cons_of_mem (List.mem_reverse.2 hmem)
      have hpath : path = bs.reverse ++ slash :: as.reverse := by
        rw [← List.reverse_reverse path, hrev, List.reverse_append, List.reverse_cons, List.append_assoc]
        rfl
      have hname : slash ∉ as.reverse := fun h => has (List.mem_reverse.1 h)
      by_cases hbs : bs = []
      · rw [hpath, hbs]
        exact root _ hname
      · rw [hpath]
        refine below _ _ (fun h => hbs (List.reverse_eq_nil_iff.1 h)) hname (ih _ ?_ _ rfl)
        rw [← hlen, hpath, List.length_append, List.length_cons]
        omega
    · exact name path hmem

/-- Where a path starts. -/
def start (fs : Fs) (path : Path) : Place := if path.head? = some slash then [] else fs.cwd

/-- The path leads to a directory. -/
def IsDirectory (fs : Fs) (path : Path) : Prop := ∃ q, fs.resolve path = .ok q ∧ fs.isDir q = true

/-- At the place of the path is a file and no directory. -/
def FileAt (fs : Fs) (path : Path) : Prop :=
  (fs.files (placeOf fs.cwd path)).isSome = true ∧ fs.isDir (placeOf fs.cwd path) = false

instance (fs : Fs) (path : Path) : Decidable (FileAt fs path) := inferInstanceAs (Decidable (_ ∧ _))

section
variable {fs fs' : Fs} {path : Path}

theorem isDirectory_iff : IsDirectory fs path ↔
    fs.resolve path = .ok (placeOf fs.cwd path) ∧ fs.isDir (placeOf fs.cwd path) = true := by
  constructor
  · rintro ⟨q, hq, hdir⟩
    rw [← resolve_eq hq]
    exact ⟨hq, hdir⟩
  · rintro ⟨hq, hdir⟩
    exact ⟨_, hq, hdir⟩

theorem IsDirectory.not_fileAt (h : IsDirectory fs path) : ¬ FileAt fs path := by
  rintro ⟨-, hdir⟩
  rw [(isDirectory_iff.1 h).2] at hdir
  cases hdir

/-- The path with all the slashes behind its last name. -/
theorem entryPath_slashes (path : Path) : ∃ k, path = entryPath path ++ List.replicate k slash := by
  induction path using List.reverseRecOn with
  | nil => exact ⟨0, rfl⟩
  | append_singleton path c ih =>
    by_cases hc : c = slash
    · subst hc
      by_cases hne : path = []
      · subst hne
        exact ⟨0, rfl⟩
      · obtain ⟨k, hk⟩ := ih
        refine ⟨k + 1, ?_⟩
        rw [entryPath_slash hne, List.replicate_succ', ← List.append_assoc, ← hk]
    · exact ⟨0, by rw [entryPath_of_last hc, List.replicate_zero, List.append_nil]⟩

theorem entryPath_ne_nil (hne : path ≠ []) : entryPath path ≠ [] := by
  induction path using List.reverseRecOn with
  | nil => exact absurd rfl hne
  | append_singleton path c ih =>
    by_cases hc : c = slash
    · subst hc
      by_cases hpath : path = []
      · subst hpath
        decide
      · rw [entryPath_slash hpath]
        exact ih hpath
    · rw [entryPath_of_last hc]
      exact List.concat_ne_nil c path

theorem head?_append {s rest : Path} (hs : s ≠ []) : (s ++ rest).head? = s.head? := by
  cases s with
  | nil => exact absurd rfl hs
  | cons c cs => rfl

theorem start_append {s rest : Path} (hs : s ≠ []) : start fs (s ++ rest) = start fs s := by
  unfold start
  rw [head?_append hs]

theorem placeOf_slash {cwd : Place} (hne : path ≠ []) : placeOf cwd (path ++ [slash]) = placeOf cwd path := by
  unfold placeOf
  rw [head?_append hne, List.splitOn_append_cons_self, List.foldl_append]
  rfl

/-- Slashes at the end of a path do not change what it starts from and leads to. -/
theorem entryPath_same (fs : Fs) (path : Path) :
    placeOf fs.cwd (entryPath path) = placeOf fs.cwd path ∧ start fs (entryPath path) = start fs path := by
  induction path using List.reverseRecOn with
  | nil => exact ⟨rfl, rfl⟩
  | append_singleton path c ih =>
    by_cases hc : c = slash
    · subst hc
      by_cases hne : path = []
      · subst hne
        exact ⟨rfl, rfl⟩
      · rw [entryPath_slash hne, placeOf_slash hne, start_append hne]
        exact ih
    · rw [entryPath_of_last hc]
      exact ⟨rfl, rfl⟩

theorem isDirectory_entryPath : IsDirectory fs (entryPath path) ↔ IsDirectory fs path := by
  constructor
  · intro h
    obtain ⟨k, hk⟩ := entryPath_slashes path
    rw [hk]
    clear hk
    induction k with
    | zero =>
      rw [List.replicate_zero, List.append_nil]
      exact h
    | succ k ih =>
      obtain ⟨q, hq, hdir⟩ := ih
      rw [List.replicate_succ', ← List.append_assoc]
      exact ⟨q, resolve_slash hq hdir, hdir⟩
  · rintro ⟨q, hq, hdir⟩
    exact ⟨q, resolve_entryPath hq, hdir⟩

theorem resolve_walk (hne : path ≠ []) : fs.resolve path = fs.walk (start fs path) (path.splitOn slash) := if_neg hne

/-- A path leads somewhere only from a directory. -/
theorem start_isDir {q : Place} (h : fs.resolve path = .ok q) : fs.isDir (start fs path) = true := by
  by_cases hne : path = []
  · subst hne
    cases h
  · rw [resolve_walk hne] at h
    cases hsplit : path.splitOn slash with
    | nil => exact absurd hsplit (List.splitOn_ne_nil _ _)
    | cons name names =>
      rw [hsplit, walk] at h
      split at h
      · assumption
      · cases h

/-- A name is looked up where its path starts. -/
theorem resolve_name {name : Path} (hne : name ≠ []) (hname : slash ∉ name) (hstart : fs.isDir (start fs name) = true) :
    fs.resolve name = .ok (enter (start fs name) name) := by
  rw [resolve_walk hne, List.splitOn_eq_singleton hname, walk, if_pos hstart, walk]

theorem resolve_root {name : Path} (hname : slash ∉ name) (hroot : fs.isDir [] = true) :
    fs.resolve (slash :: name) = .ok (enter [] name) := by
  have hsplit : (slash :: name).splitOn slash = [[], name] := by
    have happend := List.splitOn_append_cons_self_of_not_mem (List.not_mem_nil (a := slash)) name
    rw [List.nil_append] at happend
    rw [happend, List.splitOn_eq_singleton hname]
  rw [resolve_walk (by simp), hsplit]
  simp only [start, List.head?_cons, if_true, walk, hroot, enter, true_or]

/-- Above a directory are directories. -/
theorem IsDirectory.above {s rest : Path} (h : IsDirectory fs (s ++ slash :: rest)) :
    IsDirectory fs (if s = [] then [slash] else s) := by
  obtain ⟨q, hq, -⟩ := h
  split
  · rename_i hs
    subst hs
    have hroot : fs.isDir [] = true := start_isDir hq
    exact ⟨[], resolve_root List.not_mem_nil hroot, hroot⟩
  · rename_i hs
    exact resolve_through hs hq

end

/-! ## Making one directory -/

/-- From `fs` to `fs'` directories are made, none in the place of a file, and nothing else. -/
structure Grows (fs fs' : Fs) : Prop where
  cwd : fs'.cwd = fs.cwd
  files : fs'.files = fs.files
  dirs : ∀ q, fs.isDir q = true → fs'.isDir q = true
  made : ∀ q, fs'.isDir q = true → fs.isDir q = true ∨ fs.files q = none

section
variable {fs fs' fs'' : Fs} {path : Path}

theorem Grows.refl (fs : Fs) : Grows fs fs := ⟨rfl, rfl, fun _ h => h, fun _ h => .inl h⟩

theorem Grows.trans (h : Grows fs fs') (h' : Grows fs' fs'') : Grows fs fs'' where
  cwd := h'.cwd.trans h.cwd
  files := h'.files.trans h.files
  dirs q hq := h'.dirs q (h.dirs q hq)
  made q hq := by
    rcases h'.made q hq with hq | hq
    · exact h.made q hq
    · rw [h.files] at hq
      exact .inr hq

theorem Grows.isDirectory (h : Grows fs fs') (hd : IsDirectory fs path) : IsDirectory fs' path := by
  obtain ⟨q, hq, hdir⟩ := hd
  exact ⟨q, resolve_mono h.cwd h.dirs hq, h.dirs q hdir⟩

/-- What is in the way stays in the way, and was there before. -/
theorem Grows.fileAt_iff (h : Grows fs fs') : FileAt fs' path ↔ FileAt fs path := by
  unfold FileAt
  rw [h.cwd, h.files]
  refine and_congr_right fun hfile => ?_
  constructor
  · intro hdir
    by_contra hno
    rw [Bool.not_eq_false] at hno
    rw [h.dirs _ hno] at hdir
    cases hdir
  · intro hdir
    by_contra hno
    rw [Bool.not_eq_false] at hno
    rcases h.made _ hno with hold | hold
    · rw [hold] at hdir
      cases hdir
    · rw [hold] at hfile
      cases hfile

theorem Grows.made_at {q : Place} (hfree : fs.files q = none) :
    Grows fs { fs with isDir := fun q' => if q' = q then true else fs.isDir q' } where
  cwd := rfl
  files := rfl
  dirs q' hq' := by
    dsimp only
    split
    · rfl
    · exact hq'
  made q' hq' := by
    dsimp only at hq'
    split at hq'
    · rename_i hsame
      rw [hsame]
      exact .inr hfree
    · exact .inl hq'

/-- A call that leads somewhere finds something there, or makes a directory. -/
theorem mkdir_of_resolve {q : Place} (h : fs.resolve (entryPath path) = .ok q) :
    fs.mkdir path = .error .exist ∧ (IsDirectory fs path ∨ FileAt fs path) ∨
    ∃ fs', fs.mkdir path = .ok fs' ∧ Grows fs fs' ∧ IsDirectory fs' path := by
  have hplace := (resolve_eq h).trans (entryPath_same fs path).1
  unfold mkdir
  rw [h]
  dsimp only
  split
  · rename_i hthere
    refine .inl ⟨rfl, ?_⟩
    by_cases hdir : fs.isDir q = true
    · exact .inl (isDirectory_entryPath.1 ⟨q, h, hdir⟩)
    · rw [hplace] at hthere hdir
      exact .inr ⟨hthere.resolve_left hdir, by simpa using hdir⟩
  · rename_i hfree
    rw [not_or] at hfree
    have hgrows := Grows.made_at (Option.not_isSome_iff_eq_none.1 hfree.2)
    exact .inr ⟨_, rfl, hgrows, isDirectory_entryPath.1 ⟨q, resolve_mono hgrows.cwd hgrows.dirs h, if_pos rfl⟩⟩

theorem walk_error {q : Place} {names : List Path} {e : Errno} (h : fs.walk q names = .error e) : e ≠ .exist := by
  induction names generalizing q with
  | nil => cases h
  | cons name names ih =>
    unfold walk at h
    split at h
    · exact ih h
    · rintro rfl
      split at h <;> cases h

/-- The outcomes of a call: it fails on the way, or something is there, or a directory is made. -/
theorem mkdir_cases (fs : Fs) (path : Path) :
    (∃ e, fs.mkdir path = .error e ∧ e ≠ .exist) ∨
    (∃ q, fs.resolve (entryPath path) = .ok q) ∧
      (fs.mkdir path = .error .exist ∧ (IsDirectory fs path ∨ FileAt fs path) ∨
        ∃ fs', fs.mkdir path = .ok fs' ∧ Grows fs fs' ∧ IsDirectory fs' path) := by
  cases h : fs.resolve (entryPath path) with
  | ok q => exact .inr ⟨⟨q, rfl⟩, mkdir_of_resolve h⟩
  | error e =>
    refine .inl ⟨e, by rw [mkdir, h], ?_⟩
    by_cases hne : entryPath path = []
    · rw [hne] at h
      cases h
      decide
    · rw [resolve_walk hne] at h
      exact walk_error h

theorem mkdir_slash (fs : Fs) (hne : path ≠ []) : fs.mkdir (path ++ [slash]) = fs.mkdir path := by
  unfold mkdir
  rw [entryPath_slash hne]

/-- What exists after a call exists for the next one. -/
theorem mkdir_again (h : fs.mkdir path = .ok fs') : fs'.mkdir path = .error .exist := by
  rcases mkdir_cases fs path with ⟨e, he, -⟩ | ⟨-, ⟨he, -⟩ | ⟨fs1, he, -, hmade⟩⟩
  · cases he.symm.trans h
  · cases he.symm.trans h
  · cases he.symm.trans h
    obtain ⟨q, hq, hdir⟩ := isDirectory_entryPath.2 hmade
    unfold mkdir
    rw [hq]
    exact if_pos (.inl hdir)

/-- Below a directory a call always leads somewhere. -/
theorem resolve_entryPath_below {base name : Path} (hbase : IsDirectory fs base) (hname : slash ∉ name) :
    ∃ q, fs.resolve (entryPath (base ++ slash :: name)) = .ok q := by
  obtain ⟨q, hq, hdir⟩ := hbase
  exact ⟨_, resolve_entryPath (resolve_below hq hdir hname)⟩

end

end Lib.Posix.Fs
