import XDevice.Storage.LocalRefinement
import XDevice.Lib.Directories
/-!
# Making the directories of a path

`create_directories` cuts the path in its buffer at one slash after the other and makes
what is before the cut. It takes the answer that something exists for success, also when
that something is a file, and looks at the last character before it knows that there is one.
-/
open Lib Lib.Posix

namespace XDevice

/-! ## The buffer -/

/-- The text of a buffer, up to its terminator. -/
def bufferText (buf : Bytes) : CString := buf.takeWhile (· ≠ 0)

/-- The loop of `create_directories` from `p` on; a read behind the buffer is undefined. -/
def scanDirectories (fs : Fs) (tempPath : Bytes) (p : Nat) : Option (Fs × Bytes × XdeviceError) :=
  match h : tempPath[p]? with
  | none => none
  | some c =>
    if c = 0 then some (fs, tempPath, .ok)
    else if c = slash then
      let cut := tempPath.set p 0
      match fs.mkdir (bufferText cut) with
      | .ok fs => scanDirectories fs (cut.set p slash) (p + 1)
      | .error .exist => scanDirectories fs (cut.set p slash) (p + 1)
      | .error _ => some (fs, cut, .io)
    else scanDirectories fs tempPath (p + 1)
termination_by tempPath.length - p
decreasing_by
  all_goals
    have hp := (List.getElem?_eq_some_iff.1 h).1
    simp
    omega

/-- `create_directories` on its buffer of `MAX_PATH_LEN` bytes. -/
def createDirectoriesIn (fs : Fs) (path : CString) : Option (Fs × XdeviceError) :=
  let tempPath := padTo 0 (strncpy path (maxPathLen - 1)) maxPathLen
  let len := (bufferText tempPath).length
  (tempPath[sub64 len 1]?).bind fun last =>
    let tempPath := if last = slash then tempPath.set (sub64 len 1) 0 else tempPath
    (scanDirectories fs tempPath 1).map fun (fs, tempPath, ret) =>
      if ret ≠ .ok then (fs, ret)
      else
        match fs.mkdir (bufferText tempPath) with
        | .ok fs => (fs, .ok)
        | .error .exist => (fs, .ok)
        | .error _ => (fs, .io)

/-! ## The loop -/

theorem bufferText_append {t : CString} (ht : 0 ∉ t) (rest : Bytes) : bufferText (t ++ 0 :: rest) = t := by
  have hall : ∀ c ∈ t, decide (c ≠ 0) = true := by
    intro c hc
    simpa using fun he : c = 0 => ht (he ▸ hc)
  rw [bufferText, List.takeWhile_append_of_pos hall]
  simp

section
variable {fs fs' : Fs} {path : CString}

theorem makeDirectories_made (h : fs.mkdir path = .ok fs') (paths : List CString) :
    makeDirectories fs (path :: paths) = makeDirectories fs' paths := by
  rw [makeDirectories, h]

theorem makeDirectories_exist (h : fs.mkdir path = .error .exist) (paths : List CString) :
    makeDirectories fs (path :: paths) = makeDirectories fs paths := by
  rw [makeDirectories, h]

theorem makeDirectories_fails {e : Errno} (h : fs.mkdir path = .error e) (he : e ≠ .exist) (paths : List CString) :
    makeDirectories fs (path :: paths) = (fs, .io) := by
  rw [makeDirectories, h]
  cases e with
  | exist => exact absurd rfl he
  | _ => rfl

end

/-- One call gives up or does not. -/
theorem makeDirectories_single (fs : Fs) (path : CString) :
    (makeDirectories fs [path]).2 = .ok ∨ makeDirectories fs [path] = (fs, .io) := by
  rcases Fs.mkdir_cases fs path with ⟨e, hm, he⟩ | ⟨-, ⟨hm, -⟩ | ⟨fs', hm, -⟩⟩
  · exact .inr (makeDirectories_fails hm he [])
  · rw [makeDirectories_exist hm]
    exact .inl rfl
  · rw [makeDirectories_made hm]
    exact .inl rfl

theorem makeDirectories_append (fs : Fs) (paths paths' : List CString) :
    makeDirectories fs (paths ++ paths') =
      if (makeDirectories fs paths).2 = .ok then makeDirectories (makeDirectories fs paths).1 paths'
      else makeDirectories fs paths := by
  induction paths generalizing fs with
  | nil => rfl
  | cons path paths ih =>
    rw [List.cons_append]
    rcases Fs.mkdir_cases fs path with ⟨e, hm, he⟩ | ⟨-, ⟨hm, -⟩ | ⟨fs', hm, -⟩⟩
    · rw [makeDirectories_fails hm he, makeDirectories_fails hm he, if_neg (by simp)]
    · rw [makeDirectories_exist hm, makeDirectories_exist hm]
      exact ih fs
    · rw [makeDirectories_made hm, makeDirectories_made hm]
      exact ih fs'

/-- The prefixes that the loop makes from `p` on. -/
def prefixesFrom (t : CString) (p : Nat) : List CString :=
  ((List.range' p (t.length - p)).filter fun i => t[i]? = some slash).map fun i => t.take i

theorem directoryPrefixes_eq (t : CString) : directoryPrefixes t = prefixesFrom t 1 ++ [t] := by
  unfold directoryPrefixes prefixesFrom
  congr 2
  cases hlen : t.length with
  | zero => rfl
  | succ n =>
    rw [List.range_eq_range', List.range'_succ, List.filter_cons_of_neg (by simp)]
    apply List.filter_congr
    intro i hi
    have hpos : 0 < i := by
      have := (List.mem_range'_1.1 hi).1
      omega
    simp [hpos]

theorem prefixesFrom_past {t : CString} {p : Nat} (h : t.length ≤ p) : prefixesFrom t p = [] := by
  rw [prefixesFrom, Nat.sub_eq_zero_of_le h]
  rfl

theorem prefixesFrom_step {t : CString} {p : Nat} (h : p < t.length) :
    prefixesFrom t p = if t[p]? = some slash then t.take p :: prefixesFrom t (p + 1) else prefixesFrom t (p + 1) := by
  unfold prefixesFrom
  rw [show t.length - p = t.length - (p + 1) + 1 by omega, List.range'_succ, List.filter_cons]
  split
  · rename_i hslash
    rw [if_pos (by simpa using hslash), List.map_cons]
  · rename_i hslash
    rw [if_neg (by simpa using hslash)]

section
variable {fs : Fs} {tempPath : Bytes} {p : Nat} {c : Byte}

theorem scanDirectories_end (h : tempPath[p]? = some 0) : scanDirectories fs tempPath p = some (fs, tempPath, .ok) := by
  rw [scanDirectories]
  split
  · rename_i hnone
    cases hnone.symm.trans h
  · rename_i c hc
    cases hc.symm.trans h
    exact if_pos rfl

theorem scanDirectories_skip (h : tempPath[p]? = some c) (hc : c ≠ 0) (hslash : c ≠ slash) :
    scanDirectories fs tempPath p = scanDirectories fs tempPath (p + 1) := by
  rw [scanDirectories]
  split
  · rename_i hnone
    cases hnone.symm.trans h
  · rename_i c hc
    cases hc.symm.trans h
    rw [if_neg ‹c ≠ 0›, if_neg hslash]

/-- At a slash, the text before it is a path to be made. -/
theorem scanDirectories_slash (h : tempPath[p]? = some slash) :
    scanDirectories fs tempPath p =
      if (makeDirectories fs [bufferText (tempPath.set p 0)]).2 = .ok then
        scanDirectories (makeDirectories fs [bufferText (tempPath.set p 0)]).1 tempPath (p + 1)
      else some (fs, tempPath.set p 0, .io) := by
  have hrestore : (tempPath.set p 0).set p slash = tempPath := by
    obtain ⟨hp, hget⟩ := List.getElem?_eq_some_iff.1 h
    rw [List.set_set, ← hget, List.set_getElem_self]
  rw [scanDirectories]
  split
  · rename_i hnone
    cases hnone.symm.trans h
  · rename_i c hc
    cases hc.symm.trans h
    rw [if_neg (by decide), if_pos rfl]
    dsimp only
    rw [hrestore]
    rcases Fs.mkdir_cases fs (bufferText (tempPath.set p 0)) with ⟨e, hm, he⟩ | ⟨-, ⟨hm, -⟩ | ⟨fs', hm, -⟩⟩
    · rw [makeDirectories_fails hm he, if_neg (by simp), hm]
      cases e with
      | exist => exact absurd rfl he
      | _ => rfl
    · rw [makeDirectories_exist hm, hm]
      rfl
    · rw [makeDirectories_made hm, hm]
      rfl

end

/-- A zero in place of a slash leaves what is before it. -/
theorem bufferText_cut {t : CString} (ht : 0 ∉ t) {p : Nat} (hlt : p < t.length) (k : Nat) :
    bufferText ((t ++ List.replicate k 0).set p 0) = t.take p := by
  have hset : (t ++ List.replicate k 0).set p 0 = t.take p ++ 0 :: (t.drop (p + 1) ++ List.replicate k 0) := by
    rw [List.set_append_left _ _ hlt, List.set_eq_take_append_cons_drop, if_pos hlt, List.append_assoc, List.cons_append]
  rw [hset]
  exact bufferText_append (fun hmem => ht (List.mem_of_mem_take hmem)) _

/-- The loop makes the prefixes in order, and leaves the buffer as it was unless it gives up. -/
theorem scanDirectories_spec {t : CString} (ht : 0 ∉ t) (fs : Fs) {k p : Nat} (hk : 0 < k) (hp : p < t.length + k) :
    ∃ buf, scanDirectories fs (t ++ List.replicate k 0) p =
        some ((makeDirectories fs (prefixesFrom t p)).1, buf, (makeDirectories fs (prefixesFrom t p)).2) ∧
      ((makeDirectories fs (prefixesFrom t p)).2 = .ok → buf = t ++ List.replicate k 0) := by
  induction hn : t.length - p generalizing fs p with
  | zero =>
    -- the terminator
    have hlen : t.length ≤ p := by omega
    have hget : (t ++ List.replicate k 0)[p]? = some (0 : Byte) := by
      rw [List.getElem?_append_right hlen, List.getElem?_replicate, if_pos (by omega)]
    refine ⟨_, ?_, fun _ => rfl⟩
    rw [prefixesFrom_past hlen, scanDirectories_end hget]
    rfl
  | succ n ih =>
    have hlt : p < t.length := by omega
    have hget : (t ++ List.replicate k 0)[p]? = some t[p] := by
      rw [List.getElem?_append_left hlt, List.getElem?_eq_getElem hlt]
    have hnul : t[p] ≠ 0 := fun he => ht (he ▸ List.getElem_mem hlt)
    rw [prefixesFrom_step hlt, List.getElem?_eq_getElem hlt]
    by_cases hslash : t[p] = slash
    · have hcut := bufferText_cut ht hlt k
      rw [hslash] at hget
      have happend := makeDirectories_append fs [t.take p] (prefixesFrom t (p + 1))
      rw [List.singleton_append] at happend
      rw [if_pos (congrArg some hslash), scanDirectories_slash hget, hcut, happend]
      rcases makeDirectories_single fs (t.take p) with hmade | hfails
      · rw [if_pos hmade, if_pos hmade]
        exact ih _ (by omega) (by omega)
      · rw [hfails]
        exact ⟨_, rfl, fun hok => (by cases hok)⟩
    · rw [if_neg fun he => hslash (Option.some.inj he), scanDirectories_skip hget hnul hslash]
      exact ih fs (by omega) (by omega)

/-- The buffer is filled with zeros behind the path. -/
theorem padTo_zeros (t : CString) (n : Nat) : padTo 0 t n = t ++ List.replicate (n - t.length) 0 := rfl

theorem bufferText_zeros {t : CString} (ht : 0 ∉ t) {k : Nat} (hk : 0 < k) :
    bufferText (t ++ List.replicate k 0) = t := by
  obtain ⟨n, rfl⟩ := Nat.exists_eq_add_of_lt hk
  rw [Nat.zero_add, List.replicate_succ]
  exact bufferText_append ht _

/-- From the buffer without its last slash on. -/
theorem scan_and_make {t : CString} (ht : 0 ∉ t) (fs : Fs) {k : Nat} (hk : 1 < t.length + k) (hpos : 0 < k) :
    ((scanDirectories fs (t ++ List.replicate k 0) 1).map fun (fs, tempPath, ret) =>
      if ret ≠ .ok then (fs, ret)
      else
        match fs.mkdir (bufferText tempPath) with
        | .ok fs => (fs, .ok)
        | .error .exist => (fs, .ok)
        | .error _ => (fs, .io)) = some (makeDirectories fs (directoryPrefixes t)) := by
  obtain ⟨buf, hscan, hbuf⟩ := scanDirectories_spec ht fs hpos hk
  rw [hscan, directoryPrefixes_eq, makeDirectories_append, Option.map_some]
  congr 1
  dsimp only
  by_cases hok : (makeDirectories fs (prefixesFrom t 1)).2 = .ok
  · rw [if_neg (not_not.2 hok), if_pos hok, hbuf hok, bufferText_zeros ht hpos]
    rfl
  · rw [if_pos hok, if_neg hok]

/-- In its buffer the function does what it does to the path. -/
theorem createDirectoriesIn_eq (fs : Fs) {path : CString} (hnul : 0 ∉ path) :
    createDirectoriesIn fs path = createDirectories fs path := by
  obtain ⟨s, hs⟩ : ∃ s, s = strncpy path (maxPathLen - 1) := ⟨_, rfl⟩
  have hnul' : 0 ∉ s := by
    rw [hs]
    exact fun hmem => hnul (List.mem_of_mem_take hmem)
  have hlen : s.length ≤ 511 := by
    rw [hs, strncpy, List.length_take]
    exact Nat.min_le_left ..
  unfold createDirectoriesIn createDirectories
  dsimp only
  rw [← hs, padTo_zeros, bufferText_zeros hnul' (by rw [maxPathLen]; omega)]
  rcases List.eq_nil_or_concat' s with rfl | ⟨t, c, rfl⟩
  · -- the index of the last character wraps around
    rw [if_pos rfl, List.getElem?_eq_none]
    · rfl
    · simp only [List.length_append, List.length_replicate, maxPathLen]
      decide
  · have hindex : sub64 (t ++ [c]).length 1 = t.length := by
      rw [sub64_eq (by simp) (by omega), List.length_append, List.length_singleton, Nat.add_sub_cancel]
    have hlt : t.length + 1 ≤ 511 := by rwa [List.length_append, List.length_singleton] at hlen
    obtain ⟨k, hk⟩ : ∃ k, maxPathLen - (t ++ [c]).length = k + 1 := by
      refine ⟨510 - t.length, ?_⟩
      rw [List.length_append, List.length_singleton, maxPathLen]
      omega
    have hget : (t ++ [c] ++ List.replicate (k + 1) 0)[t.length]? = some c := by
      rw [List.append_assoc, List.getElem?_append_right (Nat.le_refl _), Nat.sub_self]
      rfl
    have hne : t ++ [c] ≠ [] := List.concat_ne_nil c t
    rw [hk, hindex, hget, Option.bind_some, if_neg hne, List.getLast?_concat, List.dropLast_concat]
    by_cases hslash : c = slash
    · have hset : (t ++ [c] ++ List.replicate (k + 1) 0).set t.length 0 = t ++ List.replicate (k + 2) 0 := by
        rw [List.append_assoc, List.set_append_right _ _ (Nat.le_refl _), Nat.sub_self]
        rfl
      rw [if_pos hslash, if_pos (congrArg some hslash), hset]
      exact scan_and_make (fun hmem => hnul' (List.mem_append_left _ hmem)) fs (by omega) (by omega)
    · rw [if_neg hslash, if_neg fun he => hslash (Option.some.inj he)]
      exact scan_and_make hnul' fs (by rw [List.length_append, List.length_singleton]; omega) (by omega)

/-! ## The directories -/

theorem prefixesFrom_none {t : CString} {p : Nat} (h : ∀ i, p ≤ i → t[i]? ≠ some slash) : prefixesFrom t p = [] := by
  unfold prefixesFrom
  rw [List.map_eq_nil_iff, List.filter_eq_nil_iff]
  intro i hi
  simpa using h i (List.mem_range'_1.1 hi).1

theorem prefixesFrom_below {s name : CString} (hname : slash ∉ name) {p : Nat} (hp : p ≤ s.length) :
    prefixesFrom (s ++ slash :: name) p = prefixesFrom s p ++ [s] := by
  induction hn : s.length - p generalizing p with
  | zero =>
    obtain rfl : p = s.length := by omega
    have hget : (s ++ slash :: name)[s.length]? = some slash := by
      rw [List.getElem?_append_right (Nat.le_refl _), Nat.sub_self]
      rfl
    have hrest : prefixesFrom (s ++ slash :: name) (s.length + 1) = [] := by
      refine prefixesFrom_none fun i hi he => hname ?_
      rw [List.getElem?_append_right (by omega), show i - s.length = i - s.length - 1 + 1 by omega,
        List.getElem?_cons_succ] at he
      exact List.mem_of_getElem? he
    rw [prefixesFrom_step (by simp), if_pos hget, hrest, prefixesFrom_past (Nat.le_refl _), List.take_left]
    rfl
  | succ n ih =>
    have hlt : p < s.length := by omega
    rw [prefixesFrom_step (by simp; omega), prefixesFrom_step hlt, List.getElem?_append_left hlt,
      List.take_append_of_le_length hp, ih (by omega) (by omega)]
    split <;> rfl

theorem directoryPrefixes_below {s name : CString} (hs : s ≠ []) (hname : slash ∉ name) :
    directoryPrefixes (s ++ slash :: name) = directoryPrefixes s ++ [s ++ slash :: name] := by
  rw [directoryPrefixes_eq, directoryPrefixes_eq, prefixesFrom_below hname (List.length_pos_iff.2 hs)]

theorem directoryPrefixes_name {name : CString} (hname : slash ∉ name) : directoryPrefixes name = [name] := by
  rw [directoryPrefixes_eq, prefixesFrom_none, List.nil_append]
  exact fun i _ he => hname (List.mem_of_getElem? he)

theorem directoryPrefixes_root {name : CString} (hname : slash ∉ name) :
    directoryPrefixes (slash :: name) = [slash :: name] := by
  rw [directoryPrefixes_eq, prefixesFrom_none, List.nil_append]
  intro i hi he
  rw [show i = i - 1 + 1 by omega, List.getElem?_cons_succ] at he
  exact hname (List.mem_of_getElem? he)

/-- `create_directories` behind its buffer: all the prefixes of the path, and the path. -/
def makePath (fs : Fs) (path : CString) : Fs × XdeviceError := makeDirectories fs (directoryPrefixes path)

theorem makePath_below (fs : Fs) {s name : CString} (hs : s ≠ []) (hname : slash ∉ name) :
    makePath fs (s ++ slash :: name) =
      if (makePath fs s).2 = .ok then makeDirectories (makePath fs s).1 [s ++ slash :: name] else makePath fs s := by
  rw [makePath, directoryPrefixes_below hs hname, makeDirectories_append]
  rfl

theorem makeDirectories_grows (fs : Fs) (paths : List CString) : Fs.Grows fs (makeDirectories fs paths).1 := by
  induction paths generalizing fs with
  | nil => exact .refl fs
  | cons path paths ih =>
    rcases Fs.mkdir_cases fs path with ⟨e, hm, he⟩ | ⟨-, ⟨hm, -⟩ | ⟨fs', hm, hgrows, -⟩⟩
    · rw [makeDirectories_fails hm he]
      exact .refl fs
    · rw [makeDirectories_exist hm]
      exact ih fs
    · rw [makeDirectories_made hm]
      exact hgrows.trans (ih fs')

theorem makePath_grows (fs : Fs) (path : CString) : Fs.Grows fs (makePath fs path).1 := makeDirectories_grows fs _

/-- If the last of the calls did not fail, it led somewhere, and something is there. -/
theorem makeDirectories_last {fs : Fs} {path : CString} (h : (makeDirectories fs [path]).2 = .ok) :
    (∃ q, fs.resolve (Fs.entryPath path) = .ok q) ∧ (makeDirectories fs [path]).1.mkdir path = .error .exist ∧
      (Fs.IsDirectory (makeDirectories fs [path]).1 path ∨ Fs.FileAt fs path) := by
  rcases Fs.mkdir_cases fs path with ⟨e, hm, he⟩ | ⟨hresolve, ⟨hm, hthere⟩ | ⟨fs', hm, -, hmade⟩⟩
  · rw [makeDirectories_fails hm he] at h
    cases h
  · rw [makeDirectories_exist hm]
    exact ⟨hresolve, hm, hthere⟩
  · rw [makeDirectories_made hm]
    exact ⟨hresolve, Fs.mkdir_again hm, .inl hmade⟩

theorem makePath_eq (fs : Fs) (path : CString) :
    makePath fs path =
      if (makeDirectories fs (prefixesFrom path 1)).2 = .ok then
        makeDirectories (makeDirectories fs (prefixesFrom path 1)).1 [path]
      else makeDirectories fs (prefixesFrom path 1) := by
  rw [makePath, directoryPrefixes_eq, makeDirectories_append]

/-- A slash behind the path makes no difference. -/
theorem makePath_slash (fs : Fs) {path : CString} (hne : path ≠ []) :
    makePath fs (path ++ [slash]) = makePath fs path := by
  rw [makePath_below fs hne List.not_mem_nil]
  split
  · rename_i hok
    rw [makePath_eq] at hok ⊢
    split at hok
    · rename_i hprefixes
      rw [if_pos hprefixes]
      have hexist := (makeDirectories_last hok).2.1
      rw [← Fs.mkdir_slash _ hne] at hexist
      rw [makeDirectories_exist hexist, makeDirectories, ← hok]
    · rename_i hprefixes
      exact absurd hok hprefixes
  · rfl

theorem makePath_entryPath (fs : Fs) {path : CString} (hne : path ≠ []) :
    makePath fs (Fs.entryPath path) = makePath fs path := by
  induction path using List.reverseRecOn with
  | nil => exact absurd rfl hne
  | append_singleton path c ih =>
    by_cases hc : c = slash
    · subst hc
      by_cases hpath : path = []
      · subst hpath
        rfl
      · rw [Fs.entryPath_slash hpath, makePath_slash fs hpath, ih hpath]
    · rw [Fs.entryPath_of_last hc]

/-- The root alone is refused, and every other path is made up to its last name. -/
theorem createDirectories_eq (fs : Fs) {path : CString} (hne : path ≠ []) (hlen : path.length ≤ 511) :
    createDirectories fs path = some (if path = [slash] then (fs, .io) else makePath fs (Fs.entryPath path)) := by
  unfold createDirectories
  dsimp only
  rw [strncpy_eq (by rw [maxPathLen]; omega), if_neg hne]
  rcases List.eq_nil_or_concat' path with rfl | ⟨s, c, rfl⟩
  · exact absurd rfl hne
  · rw [List.getLast?_concat, List.dropLast_concat]
    by_cases hc : c = slash
    · subst hc
      rw [if_pos rfl]
      by_cases hs : s = []
      · subst hs
        rfl
      · rw [if_neg (by simpa using hs), Fs.entryPath_slash hs, makePath_entryPath fs hs]
        rfl
    · rw [if_neg fun he => hc (Option.some.inj he), Fs.entryPath_of_last hc, if_neg]
      · rfl
      · intro he
        have hlast := congrArg List.getLast? he
        rw [List.getLast?_concat] at hlast
        exact hc (Option.some.inj hlast)

/-! ## Main theorem -/

/-- The path and everything above it are directories; above an absolute path is the root. -/
def AllDirectories (fs : Fs) (path : CString) : Prop :=
  Fs.IsDirectory fs path ∧
    ∀ s rest, path = s ++ slash :: rest → Fs.IsDirectory fs (if s = [] then [slash] else s)

/-- The function stays in its buffer, and says `XDEVICE_OK` only of directories that are there. -/
def CreatesSoundly (fs : Fs) (path : CString) : Prop :=
  ∃ fs' ret, createDirectoriesIn fs path = some (fs', ret) ∧ (ret = .ok → AllDirectories fs' path)

/-- The last name of the path is a file that is no directory, and nothing above it is one. -/
structure FileInTheWay (fs : Fs) (path : CString) : Prop where
  start : fs.isDir (Fs.start fs path) = true
  above : ∀ s rest, s ≠ [] → Fs.entryPath path = s ++ slash :: rest → ¬ Fs.FileAt fs s
  last : Fs.FileAt fs path

theorem allDirectories_of {fs : Fs} {path : CString} (h : Fs.IsDirectory fs path) : AllDirectories fs path := by
  refine ⟨h, fun s rest he => ?_⟩
  rw [he] at h
  exact h.above

/-- Where nothing is in the way above the path, every call finds or makes something. -/
theorem makePath_clear {fs : Fs} {path : CString} (hne : path ≠ []) (hstart : fs.isDir (Fs.start fs path) = true)
    (habove : ∀ s rest, s ≠ [] → path = s ++ slash :: rest → ¬ Fs.FileAt fs s) :
    (makePath fs path).2 = .ok ∧ (Fs.IsDirectory (makePath fs path).1 path ∨ Fs.FileAt fs path) := by
  have hlast : ∀ fs path q, fs.resolve (Fs.entryPath path) = .ok q → (makeDirectories fs [path]).2 = .ok := by
    intro fs path q hq
    rcases Fs.mkdir_of_resolve hq with ⟨hm, -⟩ | ⟨fs', hm, -⟩
    · rw [makeDirectories_exist hm]
      rfl
    · rw [makeDirectories_made hm]
      rfl
  induction path using Fs.path_induction with
  | name n hn =>
    have hok := hlast fs n _ (Fs.resolve_entryPath (Fs.resolve_name hne hn hstart))
    rw [makePath, directoryPrefixes_name hn]
    exact ⟨hok, (makeDirectories_last hok).2.2⟩
  | root n hn =>
    have hok := hlast fs (slash :: n) _ (Fs.resolve_entryPath (Fs.resolve_root hn hstart))
    rw [makePath, directoryPrefixes_root hn]
    exact ⟨hok, (makeDirectories_last hok).2.2⟩
  | below s n hs hn ih =>
    rw [Fs.start_append hs] at hstart
    obtain ⟨hsok, hthere⟩ := ih hs hstart fun s' rest hs' he => by
      refine habove s' (rest ++ slash :: n) hs' ?_
      rw [he, List.append_assoc, List.cons_append]
    -- what is above the name is no file, so it is a directory by now
    have hdir := hthere.resolve_right (habove s n hs rfl)
    have hgrows := makePath_grows fs s
    rw [makePath_below fs hs hn, if_pos hsok]
    obtain ⟨q, hq⟩ := Fs.resolve_entryPath_below hdir hn
    have hok := hlast _ _ q hq
    exact ⟨hok, (makeDirectories_last hok).2.2.imp_right hgrows.fileAt_iff.1⟩

/-- The first of the calls already needs a directory to start from. -/
theorem makePath_start {fs : Fs} {path : CString} (hok : (makePath fs path).2 = .ok) :
    fs.isDir (Fs.start fs path) = true := by
  have hsingle : ∀ path, (makeDirectories fs [path]).2 = .ok → fs.isDir (Fs.start fs path) = true := by
    intro path hok
    obtain ⟨⟨q, hq⟩, -, -⟩ := makeDirectories_last hok
    rw [← (Fs.entryPath_same fs path).2]
    exact Fs.start_isDir hq
  induction path using Fs.path_induction with
  | name n hn =>
    rw [makePath, directoryPrefixes_name hn] at hok
    exact hsingle n hok
  | root n hn =>
    rw [makePath, directoryPrefixes_root hn] at hok
    exact hsingle (slash :: n) hok
  | below s n hs hn ih =>
    rw [Fs.start_append hs]
    apply ih
    rw [makePath_below fs hs hn] at hok
    split at hok
    · assumption
    · exact hok

/-- A path of which all calls succeed starts in a directory, and nothing above its last name is a file. -/
theorem makePath_ok {fs : Fs} {path : CString} (hok : (makePath fs path).2 = .ok) :
    fs.isDir (Fs.start fs path) = true ∧
      (∀ s rest, s ≠ [] → Fs.entryPath path = s ++ slash :: rest → ¬ Fs.FileAt fs s) ∧
      (Fs.IsDirectory (makePath fs path).1 path ∨ Fs.FileAt fs path) := by
  refine ⟨makePath_start hok, ?_⟩
  have hgrows := makeDirectories_grows fs (prefixesFrom path 1)
  rw [makePath_eq] at hok ⊢
  split at hok
  · rename_i hprefixes
    rw [if_pos hprefixes]
    obtain ⟨⟨q, hq⟩, -, hlast⟩ := makeDirectories_last hok
    refine ⟨fun s rest hs he hfile => ?_, hlast.imp_right hgrows.fileAt_iff.1⟩
    -- the last call went through `s`
    rw [he] at hq
    have hdir : Fs.IsDirectory _ s := Fs.resolve_through hs hq
    exact hdir.not_fileAt (hgrows.fileAt_iff.2 hfile)
  · rename_i hprefixes
    exact absurd hok hprefixes

/-- A file in the way is taken for the directory that was asked for. -/
theorem makePath_blocked {fs : Fs} {path : CString} (hne : path ≠ []) (h : FileInTheWay fs path) :
    (makePath fs path).2 = .ok := by
  have hstart := h.start
  rw [← (Fs.entryPath_same fs path).2] at hstart
  rw [← makePath_entryPath fs hne]
  exact (makePath_clear (Fs.entryPath_ne_nil hne) hstart h.above).1

/-- For every file system and every path that fits the buffer. -/
theorem creates_soundly_iff (fs : Fs) {path : CString} (hnul : 0 ∉ path) (hlen : path.length ≤ 511) :
    CreatesSoundly fs path ↔ path ≠ [] ∧ ¬ FileInTheWay fs path := by
  unfold CreatesSoundly
  rw [createDirectoriesIn_eq fs hnul]
  constructor
  · rintro ⟨fs', ret, hrun, hsound⟩
    have hne : path ≠ [] := by
      rintro rfl
      cases hrun
    refine ⟨hne, fun hfile => ?_⟩
    rw [createDirectories_eq fs hne hlen, makePath_entryPath fs hne] at hrun
    have hroot : path ≠ [slash] := by
      rintro rfl
      have hdir : fs.isDir [] = true := hfile.start
      cases hdir.symm.trans hfile.last.2
    rw [if_neg hroot] at hrun
    obtain ⟨rfl, rfl⟩ := Prod.mk.inj (Option.some.inj hrun)
    exact (hsound (makePath_blocked hne hfile)).1.not_fileAt ((makePath_grows fs path).fileAt_iff.2 hfile.last)
  · rintro ⟨hne, hfree⟩
    rw [createDirectories_eq fs hne hlen, makePath_entryPath fs hne]
    split
    · exact ⟨fs, .io, rfl, fun h => (by cases h)⟩
    · refine ⟨_, _, rfl, fun hok => ?_⟩
      obtain ⟨hstart, habove, hlast⟩ := makePath_ok hok
      exact allDirectories_of (hlast.resolve_right fun hfile => hfree ⟨hstart, habove, hfile⟩)

/-- Slashes at the end and twice in a row are no trouble. -/
theorem creates_soundly_slashes : CreatesSoundly emptyDisk (cstr "/a//b/") :=
  (creates_soundly_iff emptyDisk (by decide) (by decide)).2 ⟨by decide, fun h => by cases h.last.1⟩

/-- A disk with one file on it. -/
def oneFile : Fs :=
  { emptyDisk with
    files := fun q => if q = [cstr "a"] then some 0 else none
    nextIno := 1 }

/-- An empty configuration leaves the buffer, and a file passes for the base directory. -/
theorem file_passes_for_directory :
    localStorageInit emptyDisk (some []) = none ∧ ¬ CreatesSoundly emptyDisk [] ∧
    localStorageInit oneFile (some (cstr "/a")) = some (oneFile, .ok ⟨cstr "/a", 100, [], .zero⟩) ∧
      ¬ CreatesSoundly oneFile (cstr "/a") := by
  refine ⟨rfl, ?_, rfl, ?_⟩
  · rintro ⟨fs', ret, hrun, -⟩
    rw [createDirectoriesIn_eq emptyDisk (by decide)] at hrun
    cases hrun
  · have hok : createDirectoriesIn oneFile (cstr "/a") = some (oneFile, .ok) :=
      createDirectoriesIn_eq oneFile (by decide)
    rintro ⟨fs', ret, hrun, hsound⟩
    cases hrun.symm.trans hok
    exact (hsound rfl).1.not_fileAt (by decide)

end XDevice
