import XDevice.Storage.Mock
import Mathlib.Data.Set.Card
/-!
# The Mock backend is a map from paths to byte strings

Each file's block holds its contents in the first `size` bytes; what the block
has beyond is spare. Growing a file, by either route, zeroes what becomes part
of the contents, so every call does to the contents what the reference store
does, and `mock_refines_map` follows by simulation.
-/
open Lib

namespace XDevice

/-! ## Invariant -/

namespace MockFile

/-- The bytes in use. -/
def content (f : MockFile) : Bytes := f.data.take f.size

/-- The capacity is what was allocated, and the size stays within it. -/
structure Ok (f : MockFile) : Prop where
  allocated : f.data.length = f.capacity
  fits : f.size ≤ f.capacity

theorem Ok.not_dangling {f : MockFile} (h : f.Ok) : ¬ f.Dangling := by
  rintro ⟨hdata, hcap⟩
  rw [← h.allocated, hdata] at hcap
  exact hcap rfl

theorem Ok.length_content {f : MockFile} (h : f.Ok) : f.content.length = f.size := by
  simp only [content, List.length_take, h.allocated]
  exact min_eq_left h.fits

end MockFile

/-- What `mock_storage.c` keeps true of its file list. -/
structure MockOk (priv : MockStoragePrivate) : Prop where
  paths : (priv.files.map MockFile.path).Nodup
  count : priv.fileCount = priv.files.length
  blocks : ∀ f ∈ priv.files, f.Ok
  sizes : ∀ f ∈ priv.files, f.size ≤ priv.maxFileSize

/-- The limits of `mock_storage_init`, and no error injection. -/
structure Healthy (priv : MockStoragePrivate) : Prop where
  maxFileSize : priv.maxFileSize = mockStorageInit.maxFileSize
  maxFiles : priv.maxFiles = mockStorageInit.maxFiles
  noReadErrors : priv.injectReadErrors = false
  noWriteErrors : priv.injectWriteErrors = false

/-- The contents of the stored files, by path. -/
def mockMap (priv : MockStoragePrivate) : FileMap := fun p =>
  (lookup MockFile.path priv.files p).map MockFile.content

theorem mockOk_init : MockOk mockStorageInit where
  paths := by simp [mockStorageInit]
  count := rfl
  blocks := by simp [mockStorageInit]
  sizes := by simp [mockStorageInit]

theorem healthy_init : Healthy mockStorageInit := ⟨rfl, rfl, rfl, rfl⟩

theorem mockMap_init : mockMap mockStorageInit = FileMap.empty := rfl

/-! ## Growing a file -/

theorem memset_eq {block : Bytes} {off n : Nat} (h : off + n ≤ block.length) :
    memset block off n = some (writeAt 0 block off (List.replicate n 0)) := by
  simp [memset, memcpy, h]

/-- Both routes of `expand_file` leave the contents, extended with zeros. -/
theorem expandFile_spec {env : CallEnv} {f : MockFile} {n : Nat} (ha : env.AllocOk) (hf : f.Ok)
    (hlt : f.size < n) (hn : n ≤ mockStorageInit.maxFileSize) :
    ∃ f', expandFile env f n = some (f', .ok) ∧ f'.Ok ∧ f'.path = f.path ∧ f'.size = n ∧
      f'.content = padTo 0 f.content n := by
  have hn' : n ≤ 2 ^ 30 := hn
  have hlen := hf.allocated
  have hcontent : ∀ data : Bytes, n ≤ data.length →
      (∀ i < n, data.getD i 0 = if i < f.size then f.data.getD i 0 else 0) →
      data.take n = padTo 0 f.content n := by
    intro data hd hi
    refine ext_getD 0 (by simp [hf.length_content]; omega) fun i h => ?_
    have h' : i < n := by simp at h; omega
    rw [getD_take, if_pos h', hi i h', getD_padTo, MockFile.content, getD_take]
  unfold expandFile
  by_cases hcap : n ≤ f.capacity
  · rw [if_pos hcap, if_pos hlt, memset_eq (by omega)]
    refine ⟨_, rfl, ⟨?_, hcap⟩, rfl, rfl, ?_⟩
    · exact (length_writeAt_inside 0 (by simp; omega)).trans hlen
    · refine hcontent _ (by simp; omega) fun i hi => ?_
      rw [getD_writeAt, getD_replicate, List.length_replicate]
      by_cases h : i < f.size
      · rw [if_neg (by omega), if_pos h]
      · rw [if_pos (by omega), if_neg h]
  · have hcap2 : mul64 n 2 = n * 2 := mul64_eq (by omega)
    have hsub : sub64 (n * 2) f.size = n * 2 - f.size := sub64_eq (by omega) (by omega)
    rw [if_neg hcap, if_neg hf.not_dangling]
    simp only [hcap2, hsub]
    obtain ⟨block, hb⟩ : ∃ block, realloc (env.mallocData (n * 2)) env.junk f.data (n * 2) = some block := by
      have hmax : n * 2 ≤ ptrdiffMax := by unfold ptrdiffMax; omega
      exact ⟨_, if_pos ⟨ha.2 _, hmax, fun hzero => absurd hzero (by omega)⟩⟩
    have hbl := length_realloc hb
    have hfit := hf.fits
    have hfill : f.size + (n * 2 - f.size) ≤ block.length := by omega
    simp only [hb, memset_eq hfill, Option.map_some]
    refine ⟨_, rfl, ⟨?_, by simp only; omega⟩, rfl, rfl, ?_⟩
    · exact (length_writeAt_inside 0 (by simp; omega)).trans hbl
    · refine hcontent _ (by simp; omega) fun i hi => ?_
      rw [getD_writeAt, getD_replicate, List.length_replicate]
      by_cases h : i < f.size
      · rw [if_neg (by omega), if_pos h, getD_realloc hb (by omega) (by omega)]
      · rw [if_pos (by omega), if_neg h]

/-! ## One call on a file -/

theorem readFile_spec {env : CallEnv} {priv : MockStoragePrivate} {f : MockFile} {offset size : Nat}
    (hf : f.Ok) (hsize : offset + size < 2 ^ 64) :
    ∃ st, readFile env priv f offset size = some (priv.withStats st,
      if offset < f.content.length then ⟨.ok, readAt 0 f.content offset size, 0⟩ else .ofCode .notFound) := by
  have hlen := hf.allocated
  have hfit := hf.fits
  unfold readFile
  rw [hf.length_content]
  by_cases h : f.size ≤ offset
  · exact ⟨priv.stats, by rw [if_pos h, if_neg (by omega)]; rfl⟩
  · simp only [add64_eq hsize]
    rw [if_neg h, if_pos (show offset < f.size by omega)]
    -- the part of the read inside the file, then zeros up to `size`
    have hslice : ∀ r, r = (if f.size < offset + size then f.size - offset else size) →
        (f.data.drop offset).take r ++ List.replicate (size - r) 0 = readAt 0 f.content offset size := by
      intro r hr
      refine ext_getD 0 (by simp; split at hr <;> omega) fun i hi => ?_
      rw [getD_append_fill, getD_take, getD_drop, getD_readAt, MockFile.content, getD_take]
      split at hr <;> by_cases h1 : i < r <;> by_cases h2 : i < size <;>
        by_cases h3 : offset + i < f.size <;> simp only [h1, h2, h3, if_true, if_false] <;> omega
    have hr : offset + (if f.size < offset + size then f.size - offset else size) ≤ f.data.length := by
      split <;> omega
    simp only [memcpyFrom, if_pos hr, Option.map_some]
    exact ⟨_, by rw [hslice _ rfl]⟩

/-- Writing through a file pointer overwrites the contents in place. -/
theorem writeFile_spec {env : CallEnv} {priv : MockStoragePrivate} {i : Nat} {f : MockFile} {offset : Nat}
    {data : Bytes} (ha : env.AllocOk) (hp : Healthy priv) (hf : f.Ok) (hs : f.size ≤ priv.maxFileSize)
    (hext : offset + data.length ≤ priv.maxFileSize) :
    ∃ f' st, writeFile env priv i f offset data =
        some ((priv.setFile i f').withStats st, .ofCode .ok) ∧
      f'.Ok ∧ f'.path = f.path ∧ f'.size ≤ priv.maxFileSize ∧
      f'.content = writeAt 0 f.content offset data := by
  have hmax : priv.maxFileSize = 2 ^ 30 := hp.maxFileSize
  have hadd : add64 offset data.length = offset + data.length := add64_eq (by omega)
  -- after growing, the file holds its contents padded to the end of the write
  obtain ⟨g, hg, hgok, hgp, hgs, hgc⟩ : ∃ g,
      (if f.size < offset + data.length then expandFile env f (offset + data.length) else some (f, .ok)) =
        some (g, .ok) ∧ g.Ok ∧ g.path = f.path ∧ g.size = max f.size (offset + data.length) ∧
        g.content = padTo 0 f.content (offset + data.length) := by
    by_cases h : f.size < offset + data.length
    · obtain ⟨g, h1, h2, h3, h4, h5⟩ := expandFile_spec ha hf h (hp.maxFileSize ▸ hext)
      exact ⟨g, by rw [if_pos h, h1], h2, h3, by omega, h5⟩
    · refine ⟨f, by rw [if_neg h], hf, rfl, by omega, ?_⟩
      simp [padTo, hf.length_content, show offset + data.length - f.size = 0 by omega]
  have hgl := hgok.allocated
  have hgf := hgok.fits
  simp only [writeFile, hadd, hg, Option.bind_some]
  rw [if_neg (by simp), if_neg (by omega), memcpy, if_pos (by omega)]
  have hin : offset + data.length ≤ g.data.length := by omega
  refine ⟨_, _, rfl, ⟨(length_writeAt_inside 0 hin).trans hgl, hgf⟩, hgp, by simp only; omega, ?_⟩
  simp only [MockFile.content]
  rw [take_writeAt_inside 0 (by omega)]
  have : g.data.take g.size = padTo 0 f.content (offset + data.length) := hgc
  rw [this, writeAt_padTo 0 le_rfl]
  rfl

/-! ## The file list as a map -/

theorem mockMap_eq_none {priv : MockStoragePrivate} {p : CString} :
    mockMap priv p = none ↔ findFile priv p = none := by
  simp [mockMap, findFile, indexOf_eq_none]

theorem mockMap_findFile {priv : MockStoragePrivate} {p : CString} {i : Nat} (h : findFile priv p = some i) :
    ∃ f, priv.files[i]? = some f ∧ f ∈ priv.files ∧ f.path = p ∧ mockMap priv p = some f.content := by
  obtain ⟨f, hf, hl⟩ := getElem?_indexOf MockFile.path h
  exact ⟨f, hf, mem_of_lookup _ hl, key_of_lookup _ hl, by simp [mockMap, hl]⟩

theorem mockMap_length {priv : MockStoragePrivate} (h : MockOk priv) {p : CString} {c : Bytes}
    (hp : mockMap priv p = some c) : c.length ≤ priv.maxFileSize := by
  obtain ⟨f, hf, rfl⟩ := Option.map_eq_some_iff.1 hp
  have hmem := mem_of_lookup MockFile.path hf
  rw [(h.blocks f hmem).length_content]
  exact h.sizes f hmem

/-- The number of files a reference store holds. -/
noncomputable def FileMap.fileCount (m : FileMap) : Nat := Set.ncard {p | m p ≠ none}

theorem mockMap_paths (priv : MockStoragePrivate) :
    {p | mockMap priv p ≠ none} = ((priv.files.map MockFile.path).toFinset : Set CString) := by
  ext p
  have := lookup_eq_none MockFile.path (l := priv.files) (k := p)
  simp only [mockMap, ne_eq, Option.map_eq_none_iff, Set.mem_ofPred_eq, this, not_not]
  simp

theorem MockOk.fileCount {priv : MockStoragePrivate} (h : MockOk priv) :
    (mockMap priv).fileCount = priv.fileCount := by
  rw [FileMap.fileCount, mockMap_paths, Set.ncard_coe_finset, List.toFinset_card_of_nodup h.paths, List.length_map,
    h.count]

/-- Writing to a path adds it to the count when it is new. -/
theorem FileMap.fileCount_set {m : FileMap} (hm : {p | m p ≠ none}.Finite) (p : CString) (c : Bytes) :
    (m.set p (some c)).fileCount = if m p = none then m.fileCount + 1 else m.fileCount := by
  have hset : {q | m.set p (some c) q ≠ none} = insert p {q | m q ≠ none} := by
    ext q
    by_cases hq : q = p <;> simp [FileMap.set, hq]
  simp only [FileMap.fileCount, hset]
  split
  · rw [Set.ncard_insert_of_notMem (by simpa using ‹m p = none›) hm]
  · rw [Set.insert_eq_of_mem (by simpa using ‹¬ m p = none›)]

section
variable {priv : MockStoragePrivate} {p : CString}

theorem Healthy.withStats (h : Healthy priv) (st : StorageStats) : Healthy (priv.withStats st) := ⟨h.1, h.2, h.3, h.4⟩

theorem Healthy.setFile (h : Healthy priv) (i : Nat) (f : MockFile) : Healthy (priv.setFile i f) :=
  ⟨h.1, h.2, h.3, h.4⟩

theorem Healthy.link (h : Healthy priv) (f : MockFile) : Healthy (priv.link f) := ⟨h.1, h.2, h.3, h.4⟩

theorem MockOk.withStats (h : MockOk priv) (st : StorageStats) : MockOk (priv.withStats st) := ⟨h.1, h.2, h.3, h.4⟩

@[simp] theorem mockMap_withStats (st : StorageStats) : mockMap (priv.withStats st) = mockMap priv := rfl

theorem mockMap_setFile {i : Nat} (hi : findFile priv p = some i) {f : MockFile} (hp : f.path = p) :
    mockMap (priv.setFile i f) = (mockMap priv).set p (some f.content) := by
  funext q
  simp only [mockMap, MockStoragePrivate.setFile, FileMap.set, lookup_set MockFile.path hi hp]
  split <;> simp

theorem mockMap_link {f : MockFile} (hp : f.path = p) :
    mockMap (priv.link f) = (mockMap priv).set p (some f.content) := by
  funext q
  simp only [mockMap, MockStoragePrivate.link, FileMap.set, lookup_cons, hp]
  by_cases hq : q = p
  · simp [hq]
  · simp [hq, Ne.symm hq]

/-- Replacing a file in place by one with the same path. -/
theorem MockOk.setFile (h : MockOk priv) {i : Nat} (hi : findFile priv p = some i) {f : MockFile}
    (hp : f.path = p) (hf : f.Ok) (hs : f.size ≤ priv.maxFileSize) : MockOk (priv.setFile i f) where
  paths := by
    rw [MockStoragePrivate.setFile, map_set_same MockFile.path hi hp]
    exact h.paths
  count := by simpa [MockStoragePrivate.setFile] using h.count
  blocks g hg := (List.mem_or_eq_of_mem_set hg).elim (h.blocks g) (fun e => e ▸ hf)
  sizes g hg := (List.mem_or_eq_of_mem_set hg).elim (h.sizes g) (fun e => e ▸ hs)

/-- Linking a file with a new path at the head of the list. -/
theorem MockOk.link (h : MockOk priv) (hn : findFile priv p = none) {f : MockFile} (hp : f.path = p)
    (hf : f.Ok) (hs : f.size ≤ priv.maxFileSize) : MockOk (priv.link f) where
  paths := by
    have hnew : p ∉ priv.files.map MockFile.path :=
      (lookup_eq_none MockFile.path).1 ((indexOf_eq_none MockFile.path).1 hn)
    simpa only [MockStoragePrivate.link, List.map_cons, List.nodup_cons, hp] using ⟨hnew, h.paths⟩
  count := by simp [MockStoragePrivate.link, h.count]
  blocks g hg := (List.mem_cons.1 hg).elim (fun e => e ▸ hf) (h.blocks g)
  sizes g hg := (List.mem_cons.1 hg).elim (fun e => e ▸ hs) (h.sizes g)

/-- Unlinking the file with path `p`. -/
theorem removeFile_found (h : MockOk priv) (hp : findFile priv p ≠ none) :
    ∃ priv', removeFile priv p = some (priv', .ok) ∧ MockOk priv' ∧ mockMap priv' = (mockMap priv).set p none ∧
      (Healthy priv → Healthy priv') := by
  cases hf : lookup MockFile.path priv.files p with
  | none => exact absurd ((indexOf_eq_none MockFile.path).2 hf) hp
  | some f => ?_
  have hmem := mem_of_lookup MockFile.path hf
  have hany : (priv.files.any fun f => f.path = p) = true :=
    List.any_eq_true.2 ⟨f, hmem, by simpa using key_of_lookup MockFile.path hf⟩
  refine ⟨{ priv with files := priv.files.eraseP fun f => f.path = p, fileCount := priv.fileCount - 1 },
    ?_, ⟨?_, ?_, ?_, ?_⟩, ?_, fun hh => ⟨hh.1, hh.2, hh.3, hh.4⟩⟩
  · rw [removeFile, hf]
    exact if_neg (h.blocks f hmem).not_dangling
  · exact nodup_eraseP MockFile.path h.paths _
  · simp only [h.count]
    rw [List.length_eraseP, if_pos hany]
  · exact fun g hg => h.blocks g (List.mem_of_mem_eraseP hg)
  · exact fun g hg => h.sizes g (List.mem_of_mem_eraseP hg)
  · funext q
    simp only [mockMap, FileMap.set, lookup_eraseP MockFile.path h.paths]
    split <;> simp

theorem createNewFile_spec {env : CallEnv} {n : Nat} (ha : env.AllocOk) (hh : Healthy priv)
    (hlen : p.length < maxPathLen) (hc : priv.fileCount < mockStorageInit.maxFiles)
    (hn : n ≤ mockStorageInit.maxFileSize) :
    ∃ f, createNewFile env priv p n = some (some (priv.link f)) ∧
      f.path = p ∧ f.Ok ∧ f.size = n ∧ f.content = List.replicate n 0 := by
  have hn' : n ≤ 2 ^ 30 := hn
  have hpath : strncpy p (maxPathLen - 1) = p := strncpy_eq (by omega)
  unfold createNewFile
  rw [if_neg (by rw [hh.maxFiles]; omega), if_neg (by simp [ha.1])]
  simp only [hpath]
  by_cases h0 : 0 < n
  · have hmal : malloc (env.mallocData n) env.junk n = some (freshBlock env.junk n) := by
      have : n ≤ ptrdiffMax := by unfold ptrdiffMax; omega
      simp [malloc, ha.2, this]
    have hset : memset (freshBlock env.junk n) 0 n = _ := memset_eq (by simp)
    rw [if_pos h0]
    simp only [hmal, hset, Option.map_some]
    refine ⟨_, rfl, rfl, ⟨by simp, le_rfl⟩, rfl, ?_⟩
    refine ext_getD 0 (by simp [MockFile.content]) fun i hi => ?_
    have hi' : i < n := by simp [MockFile.content] at hi; omega
    rw [MockFile.content, getD_take, if_pos hi', getD_writeAt, getD_replicate, getD_replicate, List.length_replicate,
      if_pos (by omega)]
  · obtain rfl : n = 0 := by omega
    exact ⟨_, rfl, rfl, ⟨rfl, le_rfl⟩, rfl, rfl⟩

end

/-! ## Refinement -/

/-- The Mock state stands for the reference store `m`. -/
structure MockRefines (m : FileMap) (priv : MockStoragePrivate) : Prop where
  ok : MockOk priv
  healthy : Healthy priv
  map : mockMap priv = m

theorem mockRefines_init : MockRefines FileMap.empty mockStorageInit := ⟨mockOk_init, healthy_init, mockMap_init⟩

/-- A call within the Mock backend's limits, in a store `m`: memory is there, the
path fits its buffer, the range is within the size limit, and a call that adds a
file finds fewer than the greatest number of files. -/
structure Within (m : FileMap) (a : CallEnv × StorageOp) : Prop where
  alloc : a.1.AllocOk
  path : a.2.path.length < maxPathLen
  extent : a.2.extent ≤ mockStorageInit.maxFileSize
  files : a.2.adds → m a.2.path = none → m.fileCount < mockStorageInit.maxFiles

section
variable {m : FileMap} {priv : MockStoragePrivate} {env : CallEnv}

theorem mock_create (h : MockRefines m priv) {p : CString} {n : Nat} (hw : Within m (env, .createFile p n)) :
    ∃ priv', mockStorageCreateFile env priv p n = some (priv', (m.createFile p n).2) ∧
      MockRefines (m.createFile p n).1 priv' := by
  obtain ⟨hok, hh, rfl⟩ := h
  unfold mockStorageCreateFile FileMap.createFile
  cases hf : findFile priv p with
  | some i =>
    obtain ⟨f, -, -, -, hm⟩ := mockMap_findFile hf
    exact ⟨priv, by simp [hm], by simpa [hm] using ⟨hok, hh, rfl⟩⟩
  | none =>
    have hm := mockMap_eq_none.2 hf
    have hc : priv.fileCount < mockStorageInit.maxFiles := hok.fileCount ▸ hw.files rfl hm
    have hn : n ≤ mockStorageInit.maxFileSize := hw.extent
    obtain ⟨f, hcr, hp, hfok, hs, hcon⟩ := createNewFile_spec (p := p) hw.alloc hh hw.path hc hn
    have hfs : f.size ≤ priv.maxFileSize := by rw [hs, hh.maxFileSize]; exact hn
    simp only [hm]
    refine ⟨priv.link f, ?_, hok.link hf hp hfok hfs, hh.link f, ?_⟩
    · rw [show createNewFile env priv p n = _ from hcr]; rfl
    · rw [mockMap_link hp, hcon]

theorem mock_write (h : MockRefines m priv) {p : CString} {off : Nat} {d : Bytes}
    (hw : Within m (env, .writeSync p off d)) :
    ∃ priv', mockStorageWriteSync env priv p off d = some (priv', (m.writeSync p off d).2) ∧
      MockRefines (m.writeSync p off d).1 priv' := by
  obtain ⟨hok, hh, rfl⟩ := h
  have hext0 : off + d.length ≤ mockStorageInit.maxFileSize := hw.extent
  have hext : off + d.length ≤ priv.maxFileSize := hh.maxFileSize ▸ hext0
  have hadd : add64 off d.length = off + d.length := add64_eq (by
    have : mockStorageInit.maxFileSize = 2 ^ 30 := rfl
    omega)
  unfold mockStorageWriteSync FileMap.writeSync
  by_cases h0 : d.length = 0
  · exact ⟨priv, by simp [h0], by simpa [h0] using ⟨hok, hh, rfl⟩⟩
  · simp only [if_neg h0, hh.noWriteErrors, Bool.false_and, Bool.false_eq_true, if_false, hadd]
    cases hf : findFile priv p with
    | some i =>
      obtain ⟨f, hget, hmem, hp, hm⟩ := mockMap_findFile hf
      obtain ⟨g, st, hwr, hg, hgp, hgs, hgc⟩ := writeFile_spec (i := i) hw.alloc hh (hok.blocks f hmem)
        (hok.sizes f hmem) hext
      refine ⟨(priv.setFile i g).withStats st, ?_, (hok.setFile hf (hgp.trans hp) hg hgs).withStats st,
        (hh.setFile i g).withStats st, ?_⟩
      · simp only [hget, Option.bind_some, show writeFile env priv i f off d = _ from hwr]
      · rw [mockMap_withStats, mockMap_setFile hf (hgp.trans hp), hgc, hm, Option.getD_some]
    | none =>
      have hm := mockMap_eq_none.2 hf
      have hc : priv.fileCount < mockStorageInit.maxFiles := hok.fileCount ▸ hw.files rfl hm
      obtain ⟨f, hcr, hp, hfok, hs, hcon⟩ := createNewFile_spec (p := p) hw.alloc hh hw.path hc hext0
      have hfs : f.size ≤ priv.maxFileSize := by rw [hs]; exact hext
      have hf1 : findFile (priv.link f) p = some 0 := by
        simp [findFile, MockStoragePrivate.link, indexOf_cons, hp]
      obtain ⟨g, st, hwr, hg, hgp, hgs, hgc⟩ := writeFile_spec (i := 0) hw.alloc (hh.link f) hfok hfs hext
      refine ⟨((priv.link f).setFile 0 g).withStats st, ?_,
        ((hok.link hf hp hfok hfs).setFile hf1 (hgp.trans hp) hg hgs).withStats st,
        ((hh.link f).setFile 0 g).withStats st, ?_⟩
      · simp only [show createNewFile env priv p (off + d.length) = _ from hcr, Option.bind_some,
          MockStoragePrivate.link, List.head?_cons]
        exact hwr
      · -- writing over a fresh file of zeros is writing to a missing one
        have hfresh : writeAt 0 f.content off d = writeAt 0 [] off d := by
          rw [hcon, ← writeAt_padTo 0 (l := []) (n := off + d.length) le_rfl]
          rfl
        rw [mockMap_withStats, mockMap_setFile hf1 (hgp.trans hp), mockMap_link hp, hgc, hfresh, hm,
          Option.getD_none]
        funext q
        simp only [FileMap.set]
        split <;> rfl

/-- A write that needs one file more than there may be. -/
theorem mock_write_full (h : MockRefines m priv) {p : CString} {off : Nat} {d : Bytes} (hd : d.length ≠ 0)
    (hp : m p = none) (hfull : mockStorageInit.maxFiles ≤ m.fileCount) :
    mockStorageWriteSync env priv p off d = some (priv, .ofCode .outOfMemory) := by
  obtain ⟨hok, hh, rfl⟩ := h
  have hcreate : ∀ n, createNewFile env priv p n = some none := fun n =>
    if_pos (by rw [hh.maxFiles, ← hok.fileCount]; exact hfull)
  simp [mockStorageWriteSync, hd, hh.noWriteErrors, mockMap_eq_none.1 hp, hcreate]

/-- A read of any range that does not wrap, within the size limit or not. -/
theorem mock_read (h : MockRefines m priv) {p : CString} {off n : Nat} (hn : off + n < 2 ^ 64) :
    ∃ priv', mockStorageReadSync env priv p off n = some (priv', m.readSync p off n) ∧ MockRefines m priv' := by
  obtain ⟨hok, hh, rfl⟩ := h
  unfold mockStorageReadSync FileMap.readSync
  by_cases h0 : n = 0
  · exact ⟨priv, by simp [h0], ⟨hok, hh, rfl⟩⟩
  · simp only [if_neg h0, hh.noReadErrors, Bool.false_and, Bool.false_eq_true, if_false]
    cases hf : findFile priv p with
    | some i =>
      obtain ⟨f, hget, hmem, hp, hm⟩ := mockMap_findFile hf
      obtain ⟨st, hr⟩ : ∃ st, readFile env priv f off n = some (priv.withStats st, _) :=
        readFile_spec (hok.blocks f hmem) hn
      exact ⟨priv.withStats st, by simp [hget, hr, hm], hok.withStats st, hh.withStats st, rfl⟩
    | none =>
      have hm := mockMap_eq_none.2 hf
      exact ⟨priv, by simp [hm], ⟨hok, hh, rfl⟩⟩

theorem mock_delete (h : MockRefines m priv) (p : CString) :
    ∃ priv', mockStorageDeleteFile priv p = some (priv', (m.deleteFile p).2) ∧
      MockRefines (m.deleteFile p).1 priv' := by
  obtain ⟨hok, hh, rfl⟩ := h
  unfold mockStorageDeleteFile FileMap.deleteFile
  by_cases hf : findFile priv p = none
  · have hm := mockMap_eq_none.2 hf
    exact ⟨priv, by simp [removeFile, (indexOf_eq_none MockFile.path).1 hf, hm], by simpa [hm] using ⟨hok, hh, rfl⟩⟩
  · obtain ⟨priv', hrm, hok', hmap, hh'⟩ := removeFile_found hok hf
    obtain ⟨c, hm⟩ := Option.ne_none_iff_exists'.1 (fun e => hf (mockMap_eq_none.1 e))
    exact ⟨priv', by simp [hrm, hm], by simpa [hm] using ⟨hok', hh' hh, hmap⟩⟩

theorem mock_info (h : MockRefines m priv) (p : CString) :
    mockExec env priv (.getFileInfo p) = some (priv, m.getFileInfo p) := by
  obtain ⟨hok, hh, rfl⟩ := h
  cases hf : findFile priv p with
  | some i =>
    obtain ⟨f, hget, hmem, hp, hm⟩ := mockMap_findFile hf
    simp [mockExec, mockStorageGetFileInfo, hf, hget, FileMap.getFileInfo, hm, (hok.blocks f hmem).length_content]
  | none =>
    simp [mockExec, mockStorageGetFileInfo, hf, FileMap.getFileInfo, mockMap_eq_none.2 hf, StorageReply.ofCode]

end

/-- Within the limits, every call on the Mock backend answers as the reference
store does and keeps standing for it. -/
theorem mock_sim : Machine.Sim FileMap.machine mockMachine MockRefines Within := by
  rintro m priv ⟨env, op⟩ h hw
  have hstep : ∀ m' priv' r, m.exec op = (m', r) → mockExec env priv op = some (priv', r) → MockRefines m' priv' →
      ∃ s' t' b, FileMap.machine.step m (env, op) = some (s', b) ∧
        mockMachine.step priv (env, op) = some (t', b) ∧ MockRefines s' t' :=
    fun m' priv' r h1 h2 h3 => ⟨m', priv', r, by simp [FileMap.machine, h1], h2, h3⟩
  cases op with
  | createFile p n =>
    obtain ⟨priv', h1, h2⟩ := mock_create h hw
    exact hstep _ priv' _ rfl h1 h2
  | writeSync p off d =>
    obtain ⟨priv', h1, h2⟩ := mock_write h hw
    exact hstep _ priv' _ rfl h1 h2
  | readSync p off n =>
    have hext : off + n ≤ 2 ^ 30 := hw.extent
    obtain ⟨priv', h1, h2⟩ := mock_read h (show off + n < 2 ^ 64 by omega)
    exact hstep _ priv' _ rfl h1 h2
  | deleteFile p =>
    obtain ⟨priv', h1, h2⟩ := mock_delete h p
    exact hstep _ priv' _ rfl h1 h2
  | getFileInfo p => exact hstep _ priv _ rfl (mock_info h p) h
  | fsync p => exact hstep _ priv _ rfl rfl h

/-- Every sequence of calls within the limits gets from a fresh Mock backend the
codes, bytes and sizes that the map from paths to byte strings gives. -/
theorem mock_refines_map (calls : List (CallEnv × StorageOp))
    (hcalls : FileMap.machine.Along Within FileMap.empty calls) :
    ∃ m priv replies, FileMap.machine.run FileMap.empty calls = some (m, replies) ∧
      mockMachine.run mockStorageInit calls = some (priv, replies) ∧ MockRefines m priv :=
  mock_sim.run mockRefines_init hcalls

/-- A write that leaves a gap, then a read past the end. -/
theorem mock_refines_map_gap : ∃ m priv replies,
    FileMap.machine.run FileMap.empty [(.calm, .writeSync (cstr "a") 2 [1]), (.calm, .readSync (cstr "a") 0 5)] =
      some (m, replies) ∧
    mockMachine.run mockStorageInit [(.calm, .writeSync (cstr "a") 2 [1]), (.calm, .readSync (cstr "a") 0 5)] =
      some (priv, replies) ∧ MockRefines m priv := by
  have hcalm : CallEnv.calm.AllocOk := ⟨rfl, fun _ => rfl⟩
  have hempty : FileMap.empty.fileCount = 0 := by simp [FileMap.fileCount, FileMap.empty]
  refine mock_refines_map _ ⟨⟨hcalm, by decide, by decide, fun _ _ => ?_⟩, fun _ _ _ => ⟨?_, fun _ _ _ => trivial⟩⟩
  · rw [hempty]
    decide
  · exact ⟨hcalm, by decide, by decide, fun h => by cases h⟩

end XDevice
