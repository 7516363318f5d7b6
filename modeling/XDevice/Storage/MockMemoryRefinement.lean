import XDevice.Storage.MockMemory
/-!
# Memory stands for the list of files

Each node is the only one to point to its block, and nothing else is allocated. So a block
changed through one node is no other node's, and freeing the nodes and their blocks frees
everything, unless a block was freed before: its node keeps the pointer, and with it a
capacity. The pointers of the model are then worth the positions of the list.
-/
open Lib

namespace XDevice

/-! ## Representation -/

/-- The file that a node stands for. -/
def MockFileNode.toFile (f : MockFileNode) (blocks : Heap Bytes) : MockFile :=
  ⟨f.path, (f.data.bind blocks.get).getD [], f.size, f.capacity, f.createdTime, f.modifiedTime⟩

/-- The capacity of a node is the length of its block, nothing for a null pointer, and something
where the block was freed. Only a file of 2^63 bytes or more has a block of no bytes. -/
structure MockFileNode.Sound (f : MockFileNode) (blocks : Heap Bytes) : Prop where
  null : f.data = none → f.capacity = 0
  length : ∀ b block, f.data = some b → blocks.get b = some block → block.length = f.capacity
  empty : ∀ b, f.data = some b → blocks.get b = some [] → 2 ^ 63 ≤ f.size
  freed : ∀ b, f.data = some b → blocks.get b = none → f.capacity ≠ 0

namespace MockMemory

/-- The data pointers of the nodes. -/
def dataPtrs (cells : List (Nat × MockFileNode)) : List Nat := cells.filterMap fun c => c.2.data

def view (s : MockMemory) (cells : List (Nat × MockFileNode)) : MockStoragePrivate where
  files := cells.map fun c => c.2.toFile s.blocks
  maxFileSize := s.maxFileSize
  maxFiles := s.maxFiles
  fileCount := s.fileCount
  injectReadErrors := s.injectReadErrors
  injectWriteErrors := s.injectWriteErrors
  errorRatePercent := s.errorRatePercent
  stats := s.stats

/-- The nodes are `cells`, the blocks are among those they point to, and nothing else is
allocated. -/
structure Tidy (s : MockMemory) (cells : List (Nat × MockFileNode)) : Prop where
  files : s.files.Rep cells
  blocks : s.blocks.CoveredBy (dataPtrs cells)
  sound : ∀ c ∈ cells, c.2.Sound s.blocks

def Represents (s : MockMemory) (priv : MockStoragePrivate) : Prop := ∃ cells, Tidy s cells ∧ priv = s.view cells

section
variable {s : MockMemory} {cells pre post : List (Nat × MockFileNode)} {a : Nat} {f f' : MockFileNode}
  {blocks blocks' : Heap Bytes}

theorem represents_init : Represents init mockStorageInit :=
  ⟨[], ⟨LinkedList.rep_empty, Heap.covered_empty, fun _ hc => absurd hc List.not_mem_nil⟩, rfl⟩

theorem dataPtrs_append (pre post : List (Nat × MockFileNode)) : dataPtrs (pre ++ post) = dataPtrs pre ++ dataPtrs post :=
  List.filterMap_append

theorem dataPtrs_cons (a : Nat) (f : MockFileNode) (post : List (Nat × MockFileNode)) :
    dataPtrs ((a, f) :: post) = f.data.toList ++ dataPtrs post := by
  unfold dataPtrs
  rw [List.filterMap_cons]
  cases f.data with
  | none => rfl
  | some b => rfl

/-- The pointers of one node first. -/
theorem dataPtrs_middle (pre post : List (Nat × MockFileNode)) (a : Nat) (f : MockFileNode) :
    (dataPtrs (pre ++ (a, f) :: post)).Perm (f.data.toList ++ dataPtrs (pre ++ post)) := by
  rw [dataPtrs_append, dataPtrs_append, dataPtrs_cons, ← List.append_assoc, ← List.append_assoc]
  exact List.perm_append_comm.append_right _

theorem mem_dataPtrs {c : Nat × MockFileNode} {b : Nat} (hc : c ∈ cells) (hb : c.2.data = some b) : b ∈ dataPtrs cells :=
  List.mem_filterMap.2 ⟨c, hc, hb⟩

/-- Files whose blocks are as they were are as they were. -/
theorem map_toFile_same (hsame : ∀ b ∈ dataPtrs cells, blocks.get b = s.blocks.get b) :
    (cells.map fun c => c.2.toFile blocks) = cells.map fun c => c.2.toFile s.blocks := by
  apply List.map_congr_left
  intro c hmem
  unfold MockFileNode.toFile
  cases hdata : c.2.data with
  | none => rfl
  | some b => rw [Option.bind_some, Option.bind_some, hsame b (mem_dataPtrs hmem hdata)]

theorem sound_frame (hf : f.Sound blocks) (hsame : ∀ b, f.data = some b → blocks'.get b = blocks.get b) :
    f.Sound blocks' where
  null := hf.null
  length b block hb hget := hf.length b block hb (hsame b hb ▸ hget)
  empty b hb hget := hf.empty b hb (hsame b hb ▸ hget)
  freed b hb hget := hf.freed b hb (hsame b hb ▸ hget)

theorem sound_of_block {b : Nat} {block : Bytes} (hb : f.data = some b) (hget : blocks.get b = some block)
    (hlen : block.length = f.capacity) (hempty : block = [] → 2 ^ 63 ≤ f.size) : f.Sound blocks where
  null hnull := by
    rw [hb] at hnull
    cases hnull
  length c x hc hx := by
    rw [hb] at hc
    cases hc
    rw [hget] at hx
    cases hx
    exact hlen
  empty c hc hx := by
    rw [hb] at hc
    cases hc
    rw [hget] at hx
    exact hempty (Option.some.inj hx)
  freed c hc hx := by
    rw [hb] at hc
    cases hc
    rw [hget] at hx
    cases hx

/-- A file has lost its block just when the pointer of its node leads nowhere. -/
theorem toFile_dangling (hf : f.Sound blocks) :
    (f.toFile blocks).Dangling ↔ ∃ b, f.data = some b ∧ blocks.get b = none := by
  constructor
  · rintro ⟨hdata, hcap⟩
    cases hb : f.data with
    | none => exact absurd (hf.null hb) hcap
    | some b =>
      refine ⟨b, rfl, ?_⟩
      cases hget : blocks.get b with
      | none => rfl
      | some block =>
        have hnil : block = [] := by
          rw [MockFileNode.toFile, hb, Option.bind_some, hget] at hdata
          exact hdata
        have hlen := hf.length b block hb hget
        rw [hnil] at hlen
        exact absurd hlen.symm hcap
  · rintro ⟨b, hb, hget⟩
    refine ⟨?_, hf.freed b hb hget⟩
    rw [MockFileNode.toFile, hb, Option.bind_some, hget]
    rfl

theorem Tidy.node (h : Tidy s (pre ++ (a, f) :: post)) : s.node a = some f := by
  obtain ⟨n, hn, -⟩ := h.files.split
  rw [MockMemory.node, hn]
  rfl

theorem Tidy.nodeSound (h : Tidy s (pre ++ (a, f) :: post)) : f.Sound s.blocks :=
  h.sound (a, f) (List.mem_append_right _ List.mem_cons_self)

/-- Reading through a pointer, where one that leads nowhere is as bad as an empty block. -/
theorem deref_bind {β : Type} (s : MockMemory) (f : MockFileNode) {g : Bytes → Option β} (hg : g [] = none) :
    (s.deref f.data).bind g = g (f.toFile s.blocks).data := by
  unfold MockMemory.deref MockFileNode.toFile
  cases f.data.bind s.blocks.get with
  | none => exact hg.symm
  | some block => rfl

/-- One node and its block are changed, and the other blocks are as they were. -/
theorem Tidy.replace {files : LinkedList MockFileNode} (h : Tidy s (pre ++ (a, f) :: post))
    (hfiles : files.Rep (pre ++ (a, f') :: post)) (hcovered : blocks.CoveredBy (dataPtrs (pre ++ (a, f') :: post)))
    (hsound : f'.Sound blocks) (hsame : ∀ b ∈ dataPtrs (pre ++ post), blocks.get b = s.blocks.get b) :
    Tidy { s with files := files, blocks := blocks } (pre ++ (a, f') :: post) ∧
      view { s with files := files, blocks := blocks } (pre ++ (a, f') :: post) =
        (s.view (pre ++ (a, f) :: post)).setFile pre.length (f'.toFile blocks) := by
  refine ⟨⟨hfiles, hcovered, fun c hc => ?_⟩, ?_⟩
  · rcases List.mem_append.1 hc with hpre | hrest
    · exact sound_frame (h.sound c (List.mem_append_left _ hpre)) fun b hb =>
        hsame b (mem_dataPtrs (List.mem_append_left _ hpre) hb)
    · rcases List.mem_cons.1 hrest with rfl | hpost
      · exact hsound
      · exact sound_frame (h.sound c (List.mem_append_right _ (List.mem_cons_of_mem _ hpost))) fun b hb =>
          hsame b (mem_dataPtrs (List.mem_append_right _ hpost) hb)
  · rw [dataPtrs_append] at hsame
    unfold view MockStoragePrivate.setFile
    congr 1
    simp only [List.map_append, List.map_cons]
    rw [map_toFile_same fun b hb => hsame b (List.mem_append_left _ hb),
      map_toFile_same fun b hb => hsame b (List.mem_append_right _ hb)]
    have hlen : pre.length = (pre.map fun c => c.2.toFile s.blocks).length := (List.length_map _).symm
    rw [hlen, List.set_append_right _ _ (Nat.le_refl _), Nat.sub_self, List.set_cons_zero]

/-- The pointer of a node is no other node's. -/
theorem Tidy.data_notMem (h : Tidy s (pre ++ (a, f) :: post)) {b : Nat} (hb : f.data = some b) :
    b ∉ dataPtrs (pre ++ post) := by
  have hcovered := h.blocks.perm (dataPtrs_middle pre post a f)
  rw [hb] at hcovered
  exact (List.nodup_cons.1 hcovered.nodup).1

/-- Where one node points to does not matter to the others. -/
theorem Tidy.update_other (h : Tidy s (pre ++ (a, f) :: post)) {b : Nat} (hb : f.data = some b) (x : Option Bytes) :
    ∀ c ∈ dataPtrs (pre ++ post), (s.blocks.update b x).get c = s.blocks.get c := by
  intro c hc
  apply Heap.update_other
  rintro rfl
  exact h.data_notMem hb hc

/-- The block of a node can be freed once, and the other nodes' blocks are left. -/
theorem Tidy.freeData (h : Tidy s (pre ++ (a, f) :: post)) :
    (∃ blocks, freeData s.blocks f.data = some blocks ∧ ¬ (f.toFile s.blocks).Dangling ∧
      blocks.CoveredBy (dataPtrs (pre ++ post)) ∧ ∀ c ∈ dataPtrs (pre ++ post), blocks.get c = s.blocks.get c) ∨
    freeData s.blocks f.data = none ∧ (f.toFile s.blocks).Dangling := by
  have hcovered := h.blocks.perm (dataPtrs_middle pre post a f)
  rw [toFile_dangling h.nodeSound]
  cases hb : f.data with
  | none =>
    rw [hb] at hcovered
    refine .inl ⟨s.blocks, rfl, ?_, hcovered, fun _ _ => rfl⟩
    rintro ⟨c, hc, -⟩
    cases hc
  | some b =>
    rw [hb] at hcovered
    cases hget : s.blocks.get b with
    | none =>
      refine .inr ⟨?_, b, rfl, hget⟩
      rw [MockMemory.freeData, Heap.free, hget]
      rfl
    | some block =>
      refine .inl ⟨s.blocks.update b none, Heap.free_eq (by rw [hget]; rfl), ?_, hcovered.free, h.update_other hb none⟩
      rintro ⟨c, hc, hnone⟩
      cases hc
      rw [hget] at hnone
      cases hnone

/-- A change made through the data pointer, which a pointer that leads nowhere does not allow,
and then to the node. -/
theorem Tidy.modify {β : Type} (h : Tidy s (pre ++ (a, f) :: post)) (g : Bytes → Option Bytes) (hg : g [] = none)
    (hlen : ∀ block block', g block = some block' → block'.length = block.length)
    (f' : MockFileNode) (hdata : f'.data = f.data) (hcap : f'.capacity = f.capacity) (k : MockMemory → β) :
    (g (f.toFile s.blocks).data = none ∧ ((s.deref f.data).bind fun block => (g block).bind fun block =>
        (s.setBlock f.data block).bind fun s => (s.setNode a f').map k) = none) ∨
    ∃ block s', g (f.toFile s.blocks).data = some block ∧ ((s.deref f.data).bind fun block => (g block).bind fun block =>
        (s.setBlock f.data block).bind fun s => (s.setNode a f').map k) = some (k s') ∧
      Tidy s' (pre ++ (a, f') :: post) ∧ f'.toFile s'.blocks = { f'.toFile s.blocks with data := block } ∧
      s'.view (pre ++ (a, f') :: post) =
        (s.view (pre ++ (a, f) :: post)).setFile pre.length { f'.toFile s.blocks with data := block } := by
  cases hold : s.deref f.data with
  | none =>
    have hnil : (f.toFile s.blocks).data = [] := by
      unfold MockMemory.deref at hold
      rw [MockFileNode.toFile, hold]
      rfl
    exact .inl ⟨by rw [hnil, hg], rfl⟩
  | some old =>
    obtain ⟨b, hb, hget⟩ := Option.bind_eq_some_iff.1 hold
    have hfile : (f.toFile s.blocks).data = old := by rw [MockFileNode.toFile, hb, Option.bind_some, hget]; rfl
    rw [hfile, Option.bind_some]
    cases hblock : g old with
    | none => exact .inl ⟨rfl, rfl⟩
    | some block =>
      have hlive : (s.blocks.get b).isSome = true := by rw [hget]; rfl
      have hmem : b ∈ dataPtrs (pre ++ (a, f) :: post) := h.blocks.mem b hlive
      obtain ⟨files, hset, hrep⟩ := h.files.setVal f'
      have hcovered : (s.blocks.update b (some block)).CoveredBy (dataPtrs (pre ++ (a, f') :: post)) := by
        refine (h.blocks.update hmem _).perm ((dataPtrs_middle pre post a f).trans ?_)
        rw [← hdata]
        exact (dataPtrs_middle pre post a f').symm
      have hsound : f'.Sound (s.blocks.update b (some block)) := by
        refine sound_of_block (hdata.trans hb) (Heap.update_self ..) ?_ fun hnil => ?_
        · rw [hlen old block hblock, h.nodeSound.length b old hb hget, hcap]
        · -- a block that could be changed is not empty
          have hold : old = [] := List.length_eq_zero_iff.1 (by rw [← hlen old block hblock, hnil]; rfl)
          rw [hold, hg] at hblock
          cases hblock
      have hnew : f'.toFile (s.blocks.update b (some block)) = { f'.toFile s.blocks with data := block } := by
        unfold MockFileNode.toFile
        rw [hdata, hb, Option.bind_some, Heap.update_self]
        rfl
      obtain ⟨htidy, hview⟩ := h.replace hrep hcovered hsound (h.update_other hb _)
      rw [hnew] at hview
      refine .inr ⟨block, _, rfl, ?_, htidy, hnew, hview⟩
      rw [Option.bind_some, hb, MockMemory.setBlock, Option.bind_some, Heap.set_eq hlive, Option.map_some, Option.bind_some,
        MockMemory.setNode, hset]
      rfl

/-! ## Growing a file -/

theorem memset_nil {off n : Nat} (hn : 0 < n) : memset [] off n = none := by
  rw [memset, memcpy, if_neg]
  rw [List.length_replicate, List.length_nil]
  omega

/-- A list that stays tidy with the file of one node as it was. -/
theorem Tidy.self (h : Tidy s (pre ++ (a, f) :: post)) :
    s.view (pre ++ (a, f) :: post) = (s.view (pre ++ (a, f) :: post)).setFile pre.length (f.toFile s.blocks) :=
  (h.replace h.files h.blocks h.nodeSound fun _ _ => rfl).2

/-- The block of a node is freed, and the node keeps its pointer. -/
theorem Tidy.dangle (h : Tidy s (pre ++ (a, f) :: post)) {b : Nat} (hb : f.data = some b)
    (hcap : f.capacity ≠ 0) :
    Tidy { s with blocks := s.blocks.update b none } (pre ++ (a, f) :: post) ∧
      view { s with blocks := s.blocks.update b none } (pre ++ (a, f) :: post) =
        (s.view (pre ++ (a, f) :: post)).setFile pre.length { f.toFile s.blocks with data := [] } := by
  have hmem : b ∈ dataPtrs (pre ++ (a, f) :: post) := mem_dataPtrs (List.mem_append_right _ List.mem_cons_self) hb
  have hgone : ∀ c, f.data = some c → (s.blocks.update b none).get c = none := by
    intro c hc
    rw [hb] at hc
    cases hc
    exact Heap.update_self ..
  have hsound : f.Sound (s.blocks.update b none) := by
    refine ⟨h.nodeSound.null, fun c x hc hx => ?_, fun c hc hx => ?_, fun _ _ _ => hcap⟩
    · rw [hgone c hc] at hx
      cases hx
    · rw [hgone c hc] at hx
      cases hx
  have hfile : f.toFile (s.blocks.update b none) = { f.toFile s.blocks with data := [] } := by
    unfold MockFileNode.toFile
    rw [hb, Option.bind_some, Heap.update_self]
    rfl
  obtain ⟨htidy, hview⟩ := h.replace h.files (h.blocks.update hmem none) hsound (h.update_other hb none)
  rw [hfile] at hview
  exact ⟨htidy, hview⟩

/-- `realloc` fails, with the old block kept or freed, or takes the node's block out and makes
a new one. -/
theorem Tidy.reallocData (env : CallEnv) (h : Tidy s (pre ++ (a, f) :: post)) (hlive : ¬ (f.toFile s.blocks).Dangling)
    {n : Nat} (hzero : n = 0 → f.size < 2 ^ 63) :
    (realloc (env.mallocData n) env.junk (f.toFile s.blocks).data n = none ∧
      ∃ s', s.reallocData env f.data n = some (s', none) ∧ Tidy s' (pre ++ (a, f) :: post) ∧
        f.toFile s'.blocks = { f.toFile s.blocks with data := reallocLeft (f.toFile s.blocks).data n } ∧
        s'.view (pre ++ (a, f) :: post) = (s.view (pre ++ (a, f) :: post)).setFile pre.length
          { f.toFile s.blocks with data := reallocLeft (f.toFile s.blocks).data n }) ∨
    ∃ block b blocks, realloc (env.mallocData n) env.junk (f.toFile s.blocks).data n = some block ∧
      s.reallocData env f.data n = some ({ s with blocks := blocks }, some b) ∧ blocks.get b = some block ∧
      blocks.CoveredBy (b :: dataPtrs (pre ++ post)) ∧ ∀ c ∈ dataPtrs (pre ++ post), blocks.get c = s.blocks.get c := by
  cases hb : f.data with
  | none =>
    have hdata : (f.toFile s.blocks).data = [] := by rw [MockFileNode.toFile, hb]; rfl
    have hkept : reallocLeft (f.toFile s.blocks).data n = (f.toFile s.blocks).data := by
      rw [hdata]
      exact ite_self _
    have hcovered := h.blocks.perm (dataPtrs_middle pre post a f)
    rw [hb] at hcovered
    unfold MockMemory.reallocData
    by_cases havail : env.mallocData n = true ∧ n ≤ ptrdiffMax
    · have hmalloc : malloc (env.mallocData n) env.junk n = some (freshBlock env.junk n) := if_pos havail
      have hrealloc : realloc (env.mallocData n) env.junk [] n = some (freshBlock env.junk n) :=
        (if_pos ⟨havail.1, havail.2, fun _ => rfl⟩).trans (congrArg some (by simp))
      rw [hdata, hrealloc, hmalloc]
      refine .inr ⟨_, _, _, rfl, rfl, Heap.update_self .., hcovered.alloc _, fun c hc => ?_⟩
      apply Heap.update_other
      rintro rfl
      exact hcovered.next_notMem hc
    · have hmalloc : malloc (env.mallocData n) env.junk n = none := if_neg havail
      have hrealloc : realloc (env.mallocData n) env.junk (f.toFile s.blocks).data n = none :=
        if_neg fun hr => havail ⟨hr.1, hr.2.1⟩
      rw [hrealloc, hmalloc, hkept]
      exact .inl ⟨rfl, s, rfl, h, rfl, h.self⟩
  | some b =>
    cases hget : s.blocks.get b with
    | none => exact absurd ((toFile_dangling h.nodeSound).2 ⟨b, hb, hget⟩) hlive
    | some block =>
      have hdata : (f.toFile s.blocks).data = block := by rw [MockFileNode.toFile, hb, Option.bind_some, hget]; rfl
      have hfree : s.blocks.free b = some (s.blocks.update b none) := Heap.free_eq (by rw [hget]; rfl)
      have hcovered := h.blocks.perm (dataPtrs_middle pre post a f)
      rw [hb] at hcovered
      simp only [MockMemory.reallocData, hget, Option.bind_some, hdata]
      by_cases hn : n = 0
      · -- a block that is there is freed
        have hblock : block ≠ [] := by
          rintro rfl
          exact absurd (h.nodeSound.empty b hb hget) (Nat.not_le.2 (hzero hn))
        have hcap : f.capacity ≠ 0 := by
          rw [← h.nodeSound.length b block hb hget]
          exact fun hlen => hblock (List.length_eq_zero_iff.1 hlen)
        have hrealloc : realloc (env.mallocData n) env.junk block n = none := if_neg fun hr => hblock (hr.2.2 hn)
        obtain ⟨htidy, hview⟩ := h.dangle hb hcap
        have hfile : f.toFile (s.blocks.update b none) = { f.toFile s.blocks with data := [] } := by
          unfold MockFileNode.toFile
          rw [hb, Option.bind_some, Heap.update_self]
          rfl
        rw [hrealloc, if_pos hn, hfree, reallocLeft, if_pos hn]
        exact .inl ⟨rfl, _, rfl, htidy, hfile, hview⟩
      · have hkept : { f.toFile s.blocks with data := reallocLeft block n } = f.toFile s.blocks := by
          rw [reallocLeft, if_neg hn, ← hdata]
        rw [if_neg hn, hkept]
        cases hrealloc : realloc (env.mallocData n) env.junk block n with
        | none => exact .inl ⟨rfl, s, rfl, h, rfl, h.self⟩
        | some newBlock =>
          dsimp only
          rw [hfree]
          refine .inr ⟨newBlock, _, _, rfl, rfl, Heap.update_self .., hcovered.free.alloc _, fun c hc => ?_⟩
          rw [← h.update_other hb none c hc]
          apply Heap.update_other
          rintro rfl
          exact hcovered.free.next_notMem hc

theorem length_memset {block block' : Bytes} {off n : Nat} (h : memset block off n = some block') :
    block'.length = block.length := (memset_eq_some h).2

/-- A node gets a block that it did not have, with these bytes and as large as they are. -/
theorem Tidy.fill (h : Tidy s (pre ++ (a, f) :: post)) {b capacity newSize : Nat} {blocks : Heap Bytes} {data : Bytes}
    (hheld : (blocks.get b).isSome = true) (hcovered : blocks.CoveredBy (b :: dataPtrs (pre ++ post)))
    (hsame : ∀ c ∈ dataPtrs (pre ++ post), blocks.get c = s.blocks.get c) (hlen : data.length = capacity)
    (hempty : data = [] → 2 ^ 63 ≤ newSize) :
    ∃ s', (({ s with blocks := blocks }).setBlock (some b) data).bind (fun s =>
        s.setNode a { f with data := some b, capacity := capacity, size := newSize }) = some s' ∧
      Tidy s' (pre ++ (a, { f with data := some b, capacity := capacity, size := newSize }) :: post) ∧
      MockFileNode.toFile { f with data := some b, capacity := capacity, size := newSize } s'.blocks =
        { f.toFile s.blocks with data := data, capacity := capacity, size := newSize } ∧
      s'.view (pre ++ (a, { f with data := some b, capacity := capacity, size := newSize }) :: post) =
        (s.view (pre ++ (a, f) :: post)).setFile pre.length
          { f.toFile s.blocks with data := data, capacity := capacity, size := newSize } := by
  obtain ⟨files, hset, hrep⟩ := h.files.setVal { f with data := some b, capacity := capacity, size := newSize }
  have hcovered' := (hcovered.update List.mem_cons_self (some data)).perm (dataPtrs_middle pre post a
    { f with data := some b, capacity := capacity, size := newSize }).symm
  have hsame' : ∀ c ∈ dataPtrs (pre ++ post), (blocks.update b (some data)).get c = s.blocks.get c := by
    intro c hc
    rw [← hsame c hc]
    apply Heap.update_other
    rintro rfl
    exact (List.nodup_cons.1 hcovered.nodup).1 hc
  have hsound : MockFileNode.Sound { f with data := some b, capacity := capacity, size := newSize }
      (blocks.update b (some data)) :=
    sound_of_block rfl (Heap.update_self ..) hlen hempty
  obtain ⟨htidy, hview⟩ := h.replace hrep hcovered' hsound hsame'
  have hfile : MockFileNode.toFile { f with data := some b, capacity := capacity, size := newSize }
      (blocks.update b (some data)) =
        { f.toFile s.blocks with data := data, capacity := capacity, size := newSize } := by
    unfold MockFileNode.toFile
    dsimp only
    rw [Option.bind_some, Heap.update_self]
    rfl
  rw [hfile] at hview
  refine ⟨_, ?_, htidy, hfile, hview⟩
  rw [MockMemory.setBlock, Option.bind_some, Heap.set_eq hheld, Option.map_some, Option.bind_some, MockMemory.setNode, hset]
  rfl

/-- `expand_file` does to the node and its block what it does to the file. -/
theorem Tidy.expandFile (env : CallEnv) (h : Tidy s (pre ++ (a, f) :: post)) {newSize : Nat} (hlt : f.size < newSize)
    (hword : newSize < 2 ^ 64) :
    (XDevice.expandFile env (f.toFile s.blocks) newSize = none ∧ s.expandFile env a newSize = none) ∨
    ∃ file ret s' f', XDevice.expandFile env (f.toFile s.blocks) newSize = some (file, ret) ∧
      s.expandFile env a newSize = some (s', ret) ∧ Tidy s' (pre ++ (a, f') :: post) ∧ f'.toFile s'.blocks = file ∧
      s'.view (pre ++ (a, f') :: post) = (s.view (pre ++ (a, f) :: post)).setFile pre.length file := by
  by_cases hcap : newSize ≤ f.capacity
  · have hlist : XDevice.expandFile env (f.toFile s.blocks) newSize =
        (memset (f.toFile s.blocks).data f.size (newSize - f.size)).map fun data =>
          ({ f.toFile s.blocks with data := data, size := newSize }, .ok) :=
      (if_pos hcap).trans (if_pos hlt)
    have hmemory : s.expandFile env a newSize = (s.deref f.data).bind fun block =>
        (memset block f.size (newSize - f.size)).bind fun block => (s.setBlock f.data block).bind fun s =>
          (s.setNode a { f with size := newSize }).map fun s => (s, XdeviceError.ok) := by
      rw [MockMemory.expandFile, h.node, Option.bind_some, if_pos hcap, if_pos hlt]
    have hnil : memset [] f.size (newSize - f.size) = none := memset_nil (by omega)
    rw [hlist, hmemory]
    rcases h.modify (fun block => memset block f.size (newSize - f.size)) hnil (fun _ _ => length_memset)
        { f with size := newSize } rfl rfl fun s => (s, XdeviceError.ok) with
      ⟨hnone, hrun⟩ | ⟨block, s', hblock, hrun, htidy, hfile, hview⟩
    · exact .inl ⟨Option.map_eq_none_iff.2 hnone, hrun⟩
    · refine .inr ⟨_, _, s', _, ?_, hrun, htidy, hfile, hview⟩
      rw [hblock]
      rfl
  · have hlist : ¬ newSize ≤ (f.toFile s.blocks).capacity := hcap
    have hsize : (f.toFile s.blocks).size = f.size := rfl
    rw [XDevice.expandFile, if_neg hlist, hsize, MockMemory.expandFile, h.node, Option.bind_some, if_neg hcap]
    by_cases hlive : (f.toFile s.blocks).Dangling
    · obtain ⟨b, hb, hget⟩ := (toFile_dangling h.nodeSound).1 hlive
      rw [if_pos hlive, hb]
      simp only [MockMemory.reallocData, hget, Option.bind_none]
      exact .inl ⟨trivial, trivial⟩
    · rw [if_neg hlive]
      have hzero : mul64 newSize 2 = 0 → f.size < 2 ^ 63 := by
        unfold mul64
        omega
      dsimp only
      rcases h.reallocData env hlive hzero with
        ⟨hfail, s', hrun, htidy, hfile, hview⟩ | ⟨block, b, blocks, hnew, hrun, hget, hcovered, hsame⟩
      · rw [hfail, hrun]
        exact .inr ⟨_, _, s', f, rfl, rfl, htidy, hfile, hview⟩
      · rw [hnew, hrun, Option.bind_some]
        dsimp only
        rw [MockMemory.deref, Option.bind_some, hget, Option.bind_some]
        cases hfill : memset block f.size (sub64 (mul64 newSize 2) f.size) with
        | none => exact .inl ⟨rfl, rfl⟩
        | some data =>
          have hheld : (blocks.get b).isSome = true := by rw [hget]; rfl
          have hlen : data.length = mul64 newSize 2 := (length_memset hfill).trans (length_realloc hnew)
          have hempty : data = [] → 2 ^ 63 ≤ newSize := by
            -- a block of no bytes is one whose size has wrapped
            intro hnil
            have hwrap : mul64 newSize 2 = 0 := by rw [← hlen, hnil]; rfl
            unfold mul64 at hwrap
            omega
          obtain ⟨s', hset, htidy, hfile, hview⟩ := h.fill hheld hcovered hsame hlen hempty
          refine .inr ⟨_, _, s', _, rfl, ?_, htidy, hfile, hview⟩
          dsimp only [Option.bind_some, MockMemory.setBlock] at hset ⊢
          rw [Heap.set_eq hheld, Option.map_some, Option.bind_some] at hset ⊢
          rw [hset]
          rfl

/-! ## Calls -/

/-- The pointer that a search finds is that of the node at the position. -/
theorem Tidy.findFile (h : Tidy s cells) (path : CString) :
    (s.findFile path = some none ∧ XDevice.findFile (s.view cells) path = none) ∨
    ∃ pre a f post, cells = pre ++ (a, f) :: post ∧ s.findFile path = some (some a) ∧
      XDevice.findFile (s.view cells) path = some pre.length := by
  have hfind := h.files.find fun f => decide (f.path = path)
  have hindex : ∀ cells : List (Nat × MockFileNode),
      (cells.map fun c => c.2.toFile s.blocks).findIdx? (fun f => decide (f.path = path)) =
        cells.findIdx? fun c => decide (c.2.path = path) := fun cells => List.findIdx?_map ..
  have hlist : XDevice.findFile (s.view cells) path = cells.findIdx? fun c => decide (c.2.path = path) := hindex cells
  cases hc : cells.find? fun c => decide (c.2.path = path) with
  | none =>
    rw [hc] at hfind
    refine .inl ⟨hfind, ?_⟩
    rw [hlist, List.findIdx?_eq_none_iff]
    intro c hmem
    have := List.find?_eq_none.1 hc c hmem
    simpa using this
  | some c =>
    obtain ⟨a, f⟩ := c
    rw [hc] at hfind
    obtain ⟨hpath, pre, post, rfl, hpre⟩ := List.find?_eq_some_iff_append.1 hc
    refine .inr ⟨pre, a, f, post, rfl, hfind, ?_⟩
    rw [hlist, List.findIdx?_append, List.findIdx?_eq_none_iff.2 fun c hmem => by simpa using hpre c hmem,
      List.findIdx?_cons, if_pos hpath]
    simp

theorem view_getElem? (s : MockMemory) (pre post : List (Nat × MockFileNode)) (a : Nat) (f : MockFileNode) :
    (s.view (pre ++ (a, f) :: post)).files[pre.length]? = some (f.toFile s.blocks) := by
  rw [view, List.map_append, List.map_cons, List.getElem?_append_right (by rw [List.length_map]), List.length_map,
    Nat.sub_self]
  rfl

/-- The outcomes of a call in memory and on the list are the same. -/
def Agree {β : Type} (r : Option (MockMemory × β)) (r' : Option (MockStoragePrivate × β)) : Prop :=
  r = none ∧ r' = none ∨ ∃ s priv b, r = some (s, b) ∧ r' = some (priv, b) ∧ Represents s priv

theorem Agree.same {β : Type} (h : Tidy s cells) (b : β) : Agree (some (s, b)) (some (s.view cells, b)) :=
  .inr ⟨s, _, b, rfl, rfl, cells, h, rfl⟩

theorem Tidy.withStats (h : Tidy s cells) (st : StorageStats) : Tidy (s.withStats st) cells :=
  ⟨h.files, h.blocks, h.sound⟩

theorem agree_read (env : CallEnv) (h : Tidy s cells) (path : CString) (offset size : Nat) :
    Agree (s.mockStorageReadSync env path offset size)
      (XDevice.mockStorageReadSync env (s.view cells) path offset size) := by
  unfold MockMemory.mockStorageReadSync XDevice.mockStorageReadSync
  have hnil : ∀ n, 0 < n → memcpyFrom [] offset n = none := by
    intro n hn
    rw [memcpyFrom, if_neg]
    rw [List.length_nil]
    omega
  have hinject : (s.injectReadErrors && s.shouldInjectError env) =
      ((s.view cells).injectReadErrors && XDevice.shouldInjectError env (s.view cells)) := rfl
  rw [← hinject]
  split
  · exact Agree.same h _
  · split
    · exact Agree.same (h.withStats _) _
    · rcases h.findFile path with ⟨hfind, hlist⟩ | ⟨pre, a, f, post, rfl, hfind, hlist⟩
      · rw [hfind, hlist]
        exact Agree.same h _
      · rw [hfind, hlist, Option.bind_some]
        dsimp only
        rw [h.node, view_getElem?, Option.bind_some, Option.bind_some]
        unfold readFile
        have hsize : (f.toFile s.blocks).size = f.size := rfl
        rw [hsize]
        by_cases hoff : f.size ≤ offset
        · rw [if_pos hoff, if_pos hoff]
          exact Agree.same h _
        · rw [if_neg hoff, if_neg hoff]
          dsimp only
          have hpos : 0 < if f.size < add64 offset size then f.size - offset else size := by
            split <;> omega
          generalize (if f.size < add64 offset size then f.size - offset else size) = readSize at hpos ⊢
          rw [deref_bind s f (by rw [hnil _ hpos]; rfl)]
          cases memcpyFrom (f.toFile s.blocks).data offset readSize with
          | none => exact .inl ⟨rfl, rfl⟩
          | some bytes => exact Agree.same (h.withStats _) _

/-- The last part of a write: the file is long enough, its size is checked and the data copied. -/
theorem Tidy.copy (env : CallEnv) {priv : MockStoragePrivate} (h : Tidy s (pre ++ (a, f) :: post))
    (hview : s.view (pre ++ (a, f) :: post) = priv.setFile pre.length (f.toFile s.blocks)) (offset : Nat) {data : Bytes}
    (hdata : data.length ≠ 0) :
    Agree (if s.maxFileSize < f.size then some (s, StorageReply.ofCode .noSpace)
        else (s.deref f.data).bind fun block => (memcpy block offset data).bind fun block =>
          (s.setBlock f.data block).bind fun s => (s.setNode a { f with modifiedTime := env.now }).map fun s =>
            (s.withStats (s.stats.countWrite data.length env.latencyNs), StorageReply.ofCode .ok))
      (if priv.maxFileSize < (f.toFile s.blocks).size then
          some (priv.setFile pre.length (f.toFile s.blocks), StorageReply.ofCode .noSpace)
        else (memcpy (f.toFile s.blocks).data offset data).map fun block =>
          ((priv.setFile pre.length { f.toFile s.blocks with data := block, modifiedTime := env.now }).withStats
            (priv.stats.countWrite data.length env.latencyNs), StorageReply.ofCode .ok)) := by
  have hmax : s.maxFileSize = priv.maxFileSize := congrArg MockStoragePrivate.maxFileSize hview
  have hsize : (f.toFile s.blocks).size = f.size := rfl
  rw [hmax, hsize]
  by_cases hbig : priv.maxFileSize < f.size
  · rw [if_pos hbig, if_pos hbig, ← hview]
    exact Agree.same h _
  · rw [if_neg hbig, if_neg hbig]
    have hnil : memcpy [] offset data = none := by
      rw [memcpy, if_neg]
      rw [List.length_nil]
      omega
    have hlen : ∀ block block', memcpy block offset data = some block' → block'.length = block.length := by
      intro block block' hcopy
      obtain ⟨hin, he⟩ := Option.ite_none_right_eq_some.1 hcopy
      cases he
      exact length_writeAt_inside 0 hin
    rcases h.modify (fun block => memcpy block offset data) hnil hlen { f with modifiedTime := env.now } rfl rfl fun s =>
        (s.withStats (s.stats.countWrite data.length env.latencyNs), StorageReply.ofCode .ok) with
      ⟨hnone, hrun⟩ | ⟨block, s', hblock, hrun, htidy, -, hview'⟩
    · exact .inl ⟨hrun, Option.map_eq_none_iff.2 hnone⟩
    · rw [hrun, hblock, Option.map_some]
      rw [hview] at hview'
      have hset : s'.view (pre ++ (a, { f with modifiedTime := env.now }) :: post) =
          priv.setFile pre.length { f.toFile s.blocks with data := block, modifiedTime := env.now } := by
        rw [hview', MockStoragePrivate.setFile, MockStoragePrivate.setFile, List.set_set]
        rfl
      have hstats : s'.stats = priv.stats := congrArg MockStoragePrivate.stats hset
      refine .inr ⟨_, _, _, rfl, rfl, _, htidy.withStats _, ?_⟩
      rw [hstats, ← hset]
      rfl

theorem agree_writeFile (env : CallEnv) (h : Tidy s (pre ++ (a, f) :: post)) (offset : Nat) {data : Bytes}
    (hdata : data.length ≠ 0) :
    Agree (s.writeFile env a offset data)
      (XDevice.writeFile env (s.view (pre ++ (a, f) :: post)) pre.length (f.toFile s.blocks) offset data) := by
  unfold MockMemory.writeFile XDevice.writeFile
  dsimp only
  rw [h.node, Option.bind_some]
  have hsize : (f.toFile s.blocks).size = f.size := rfl
  rw [hsize]
  by_cases hgrow : f.size < add64 offset data.length
  · rw [if_pos hgrow, if_pos hgrow]
    rcases h.expandFile env hgrow (add64_lt ..) with
      ⟨hlist, hmemory⟩ | ⟨file, ret, s', f', hlist, hmemory, htidy, rfl, hview⟩
    · rw [hlist, hmemory]
      exact .inl ⟨rfl, rfl⟩
    · rw [hlist, hmemory, Option.bind_some, Option.bind_some]
      dsimp only
      by_cases hret : ret = .ok
      · rw [if_neg (not_not.2 hret), if_neg (not_not.2 hret), htidy.node, Option.bind_some]
        exact htidy.copy env hview offset hdata
      · rw [if_pos hret, if_pos hret, ← hview]
        exact Agree.same htidy _
  · rw [if_neg hgrow, if_neg hgrow, Option.bind_some, Option.bind_some]
    dsimp only
    rw [if_neg (by simp), h.node, Option.bind_some]
    exact h.copy env h.self offset hdata

/-! ## Files come and go -/

/-- A node pushed onto the list, its block allocated before. -/
theorem Tidy.link (h : Tidy s cells) (blocks : Heap Bytes) (hcovered : blocks.CoveredBy (f.data.toList ++ dataPtrs cells))
    (hsound : f.Sound blocks) (hsame : ∀ b ∈ dataPtrs cells, blocks.get b = s.blocks.get b) :
    Tidy { s with files := s.files.push f, blocks := blocks, fileCount := s.fileCount + 1 }
        ((s.files.heap.next, f) :: cells) ∧
      view { s with files := s.files.push f, blocks := blocks, fileCount := s.fileCount + 1 }
        ((s.files.heap.next, f) :: cells) = (s.view cells).link (f.toFile blocks) := by
  rw [← dataPtrs_cons s.files.heap.next] at hcovered
  refine ⟨⟨h.files.push f, hcovered, List.forall_mem_cons.2 ⟨hsound, fun c hc => ?_⟩⟩, ?_⟩
  · exact sound_frame (h.sound c hc) fun b hb => hsame b (mem_dataPtrs hc hb)
  unfold view MockStoragePrivate.link
  dsimp only
  rw [List.map_cons, map_toFile_same hsame]

/-- A node that is allocated and freed again leaves the list as it was. -/
theorem Tidy.allocFree (h : Tidy s cells) (x : Link MockFileNode) :
    ∃ heap, ((s.files.heap.alloc x).1.free (s.files.heap.alloc x).2) = some heap ∧
      Tidy { s with files := { s.files with heap := heap } } cells := by
  have howns := h.files.owns.alloc x
  refine ⟨_, Heap.free_eq ((howns.live _).2 List.mem_cons_self), ⟨?_, howns.free⟩, h.blocks, h.sound⟩
  refine h.files.seg.frame fun b hb => ?_
  have hne : b ≠ s.files.heap.next := by
    rintro rfl
    exact h.files.owns.next_notMem hb
  have hfree : ((s.files.heap.alloc x).1.update s.files.heap.next none).get b = (s.files.heap.alloc x).1.get b :=
    Heap.update_other _ _ hne
  exact hfree.trans (Heap.update_other _ _ hne)

theorem Tidy.createNewFile (env : CallEnv) (h : Tidy s cells) (path : CString) (initialSize : Nat) :
    (XDevice.createNewFile env (s.view cells) path initialSize = none ∧ s.createNewFile env path initialSize = none) ∨
    (XDevice.createNewFile env (s.view cells) path initialSize = some none ∧
      ∃ s', s.createNewFile env path initialSize = some (s', none) ∧ Tidy s' cells ∧ s'.view cells = s.view cells) ∨
    ∃ s' a f, XDevice.createNewFile env (s.view cells) path initialSize = some (some (s'.view ((a, f) :: cells))) ∧
      s.createNewFile env path initialSize = some (s', some a) ∧ Tidy s' ((a, f) :: cells) := by
  unfold XDevice.createNewFile MockMemory.createNewFile
  have hmax : (s.view cells).maxFiles = s.maxFiles := rfl
  have hcount : (s.view cells).fileCount = s.fileCount := rfl
  rw [hmax, hcount]
  by_cases hfull : s.maxFiles ≤ s.fileCount
  · rw [if_pos hfull, if_pos hfull]
    exact .inr (.inl ⟨rfl, s, rfl, h, rfl⟩)
  rw [if_neg hfull, if_neg hfull]
  by_cases hnode : ¬ env.mallocFile = true
  · rw [if_pos hnode, if_pos hnode]
    exact .inr (.inl ⟨rfl, s, rfl, h, rfl⟩)
  rw [if_neg hnode, if_neg hnode]
  dsimp only
  by_cases hsize : 0 < initialSize
  · rw [if_pos hsize, if_pos hsize]
    cases hblock : malloc (env.mallocData initialSize) env.junk initialSize with
    | none =>
      obtain ⟨heap, hfree, htidy⟩ := h.allocFree
        ⟨⟨strncpy path (maxPathLen - 1), none, 0, initialSize, env.now, env.now⟩, none⟩
      refine .inr (.inl ⟨rfl, _, ?_, htidy, rfl⟩)
      dsimp only
      rw [hfree]
      rfl
    | some block =>
      dsimp only
      cases hfill : memset block 0 initialSize with
      | none => exact .inl ⟨rfl, rfl⟩
      | some data =>
        have hlen : data.length = initialSize := by
          obtain ⟨-, he⟩ := Option.ite_none_right_eq_some.1 hblock
          cases he
          exact (length_memset hfill).trans (length_freshBlock ..)
        have hsound : MockFileNode.Sound
            ⟨strncpy path (maxPathLen - 1), some s.blocks.next, initialSize, initialSize, env.now, env.now⟩
            (s.blocks.alloc data).1 := by
          refine sound_of_block rfl (Heap.update_self ..) hlen fun hnil => ?_
          rw [hnil, List.length_nil] at hlen
          omega
        obtain ⟨htidy, hview⟩ := h.link (f := ⟨strncpy path (maxPathLen - 1), some s.blocks.next, initialSize, initialSize,
            env.now, env.now⟩) (s.blocks.alloc data).1 (h.blocks.alloc data) hsound fun b hb => by
          refine Heap.update_other _ _ ?_
          rintro rfl
          exact h.blocks.next_notMem hb
        have hfile : MockFileNode.toFile
            ⟨strncpy path (maxPathLen - 1), some s.blocks.next, initialSize, initialSize, env.now, env.now⟩
              (s.blocks.alloc data).1 =
            ⟨strncpy path (maxPathLen - 1), data, initialSize, initialSize, env.now, env.now⟩ := by
          unfold MockFileNode.toFile
          dsimp only [Heap.alloc]
          rw [Option.bind_some, Heap.update_self]
          rfl
        rw [hfile] at hview
        refine .inr (.inr ⟨_, _, _, ?_, rfl, htidy⟩)
        exact congrArg (fun priv => some (some priv)) hview.symm
  · rw [if_neg hsize, if_neg hsize]
    have hsound : MockFileNode.Sound ⟨strncpy path (maxPathLen - 1), none, 0, 0, env.now, env.now⟩ s.blocks :=
      ⟨fun _ => rfl, fun _ _ hc => absurd hc (by simp), fun _ hc => absurd hc (by simp), fun _ hc => absurd hc (by simp)⟩
    obtain ⟨htidy, hview⟩ := h.link (f := ⟨strncpy path (maxPathLen - 1), none, 0, 0, env.now, env.now⟩) s.blocks h.blocks
      hsound fun _ _ => rfl
    refine .inr (.inr ⟨_, _, _, ?_, rfl, htidy⟩)
    rw [hview]
    rfl

theorem agree_write (env : CallEnv) (h : Tidy s cells) (path : CString) (offset : Nat) (data : Bytes) :
    Agree (s.mockStorageWriteSync env path offset data)
      (XDevice.mockStorageWriteSync env (s.view cells) path offset data) := by
  unfold MockMemory.mockStorageWriteSync XDevice.mockStorageWriteSync
  have hinject : (s.injectWriteErrors && s.shouldInjectError env) =
      ((s.view cells).injectWriteErrors && XDevice.shouldInjectError env (s.view cells)) := rfl
  rw [← hinject]
  by_cases hdata : data.length = 0
  · rw [if_pos hdata, if_pos hdata]
    exact Agree.same h _
  rw [if_neg hdata, if_neg hdata]
  split
  · exact Agree.same (h.withStats _) _
  rcases h.findFile path with ⟨hfind, hlist⟩ | ⟨pre, a, f, post, rfl, hfind, hlist⟩
  · rw [hfind, hlist, Option.bind_some]
    dsimp only
    rcases h.createNewFile env path (add64 offset data.length) with
      ⟨hnew, hrun⟩ | ⟨hnew, s', hrun, htidy, hview⟩ | ⟨s', a, f, hnew, hrun, htidy⟩
    · rw [hnew, hrun]
      exact .inl ⟨rfl, rfl⟩
    · rw [hnew, hrun, ← hview]
      exact Agree.same htidy _
    · rw [hnew, hrun]
      exact agree_writeFile env (show Tidy s' ([] ++ (a, f) :: cells) from htidy) offset hdata
  · rw [hfind, hlist, Option.bind_some]
    dsimp only
    rw [view_getElem?, Option.bind_some]
    exact agree_writeFile env h offset hdata

theorem agree_create (env : CallEnv) (h : Tidy s cells) (path : CString) (initialSize : Nat) :
    Agree (s.mockStorageCreateFile env path initialSize)
      (XDevice.mockStorageCreateFile env (s.view cells) path initialSize) := by
  unfold MockMemory.mockStorageCreateFile XDevice.mockStorageCreateFile
  rcases h.findFile path with ⟨hfind, hlist⟩ | ⟨pre, a, f, post, rfl, hfind, hlist⟩
  · rw [hfind, hlist, Option.bind_some]
    dsimp only
    rcases h.createNewFile env path initialSize with
      ⟨hnew, hrun⟩ | ⟨hnew, s', hrun, htidy, hview⟩ | ⟨s', a, f, hnew, hrun, htidy⟩
    · rw [hnew, hrun]
      exact .inl ⟨rfl, rfl⟩
    · rw [hnew, hrun, ← hview]
      exact Agree.same htidy _
    · rw [hnew, hrun]
      exact Agree.same htidy _
  · rw [hfind, hlist]
    exact Agree.same h _

theorem agree_removeFile (h : Tidy s cells) (path : CString) :
    Agree (s.removeFile path) (XDevice.removeFile (s.view cells) path) := by
  have hunlink := h.files.unlink fun f => decide (f.path = path)
  have hlookup : lookup MockFile.path (s.view cells).files path =
      (cells.find? fun c => decide (c.2.path = path)).map fun c => c.2.toFile s.blocks := List.find?_map ..
  have herase : ((s.view cells).files.eraseP fun f => decide (f.path = path)) =
      (cells.eraseP fun c => decide (c.2.path = path)).map fun c => c.2.toFile s.blocks := List.eraseP_map
  unfold XDevice.removeFile MockMemory.removeFile
  rw [hlookup]
  cases hfind : cells.find? fun c => decide (c.2.path = path) with
  | none =>
    rw [hfind] at hunlink
    rw [hunlink]
    exact Agree.same h _
  | some c =>
    obtain ⟨a, f⟩ := c
    rw [hfind] at hunlink
    obtain ⟨l, n, heap, hrun, hnode, hfree, hrep⟩ := hunlink
    obtain ⟨hpath, pre, post, rfl, hpre⟩ := List.find?_eq_some_iff_append.1 hfind
    have hrest : ((pre ++ (a, f) :: post).eraseP fun c => decide (c.2.path = path)) = pre ++ post := by
      rw [List.eraseP_append_right _ fun c hc => by simpa using hpre c hc]
      exact congrArg (pre ++ ·) (List.eraseP_cons_of_pos hpath)
    rw [hrest] at hrep herase
    rw [hrun, Option.map_some, Option.bind_some]
    dsimp only
    rw [hnode, Option.bind_some]
    dsimp only
    rcases h.freeData with ⟨blocks, hdata, hlive, hleft, hsame⟩ | ⟨hdata, hgone⟩
    · rw [hdata, Option.bind_some, hfree, if_neg hlive]
      refine .inr ⟨_, _, _, rfl, rfl, pre ++ post, ⟨hrep, hleft, fun c hc => ?_⟩, ?_⟩
      · refine sound_frame (h.sound c ?_) fun b hb => hsame b (mem_dataPtrs hc hb)
        exact (List.mem_append.1 hc).elim (List.mem_append_left _) fun hpost =>
          List.mem_append_right _ (List.mem_cons_of_mem _ hpost)
      · rw [herase]
        unfold view
        dsimp only
        rw [map_toFile_same hsame]
    · rw [hdata, if_pos hgone]
      exact .inl ⟨rfl, rfl⟩

/-! ## Runs -/

theorem agree_exec (env : CallEnv) (h : Tidy s cells) (op : StorageOp) :
    Agree (s.exec env op) (mockExec env (s.view cells) op) := by
  cases op with
  | createFile path n => exact agree_create env h path n
  | writeSync path offset data => exact agree_write env h path offset data
  | readSync path offset n => exact agree_read env h path offset n
  | deleteFile path =>
    dsimp only [MockMemory.exec, mockExec, MockMemory.mockStorageDeleteFile, XDevice.mockStorageDeleteFile]
    rcases agree_removeFile h path with ⟨hrun, hlist⟩ | ⟨s', priv', ret, hrun, hlist, hrep⟩
    · rw [hrun, hlist]
      exact .inl ⟨rfl, rfl⟩
    · rw [hrun, hlist]
      exact .inr ⟨s', priv', _, rfl, rfl, hrep⟩
  | getFileInfo path =>
    dsimp only [MockMemory.exec, mockExec, MockMemory.mockStorageGetFileInfo, XDevice.mockStorageGetFileInfo]
    rcases h.findFile path with ⟨hfind, hlist⟩ | ⟨pre, a, f, post, rfl, hfind, hlist⟩
    · rw [hfind, hlist]
      exact Agree.same h _
    · rw [hfind, hlist, Option.bind_some, Option.bind_some, view_getElem?]
      dsimp only
      rw [h.node]
      exact Agree.same h _
  | fsync path => exact Agree.same h _

theorem lockstep_store : Machine.Lockstep store mockStore Represents := by
  rintro s priv call ⟨cells, h, rfl⟩
  cases call with
  | op env op => exact agree_exec env h op
  | setErrorInjection readErrors writeErrors percent =>
    exact .inr ⟨_, _, _, rfl, rfl, cells, ⟨h.files, h.blocks, h.sound⟩, rfl⟩

/-- Every run of calls gives the same replies in memory and on the list of files, or is
undefined in both. -/
theorem memory_refines_list (calls : List MockCall) :
    (store.run init calls = none ∧ mockStore.run mockStorageInit calls = none) ∨
    ∃ s priv replies, store.run init calls = some (s, replies) ∧
      mockStore.run mockStorageInit calls = some (priv, replies) ∧ Represents s priv :=
  lockstep_store.run represents_init calls

/-! ## Cleaning up -/

/-- The loop frees a node after its block, and goes on with the nodes behind it, up to a node
whose block is gone. -/
theorem freeFiles_spec {fuel : Nat} {p : Option Nat} (h : Tidy { s with files := ⟨s.files.heap, p⟩ } cells)
    (hfuel : cells.length ≤ fuel) :
    (∃ s', s.freeFiles fuel p = some s' ∧ s'.files.heap.Owns [] ∧ s'.blocks.CoveredBy [] ∧
      ∀ c ∈ cells, ¬ (c.2.toFile s.blocks).Dangling) ∨
    s.freeFiles fuel p = none ∧ ∃ c ∈ cells, (c.2.toFile s.blocks).Dangling := by
  induction cells generalizing s fuel p with
  | nil =>
    have hp : p = none := h.files.seg
    refine .inl ⟨s, ?_, h.files.owns, h.blocks, fun _ hc => absurd hc List.not_mem_nil⟩
    rw [hp]
    cases fuel <;> rfl
  | cons c cells ih =>
    obtain ⟨a, f⟩ := c
    obtain ⟨fuel, rfl⟩ : ∃ k, fuel = k + 1 := ⟨fuel - 1, by rw [List.length_cons] at hfuel; omega⟩
    have hfirst : Tidy { s with files := ⟨s.files.heap, p⟩ } ([] ++ (a, f) :: cells) := h
    obtain ⟨rfl, n, hn, hrest⟩ := h.files.seg
    have hget : s.files.heap.get a = some ⟨f, n⟩ := hn
    rw [MockMemory.freeFiles, hget, Option.bind_some]
    rcases hfirst.freeData with ⟨blocks, hdata, hlive, hleft, hsame⟩ | ⟨hdata, hgone⟩
    · have hdata : MockMemory.freeData s.blocks f.data = some blocks := hdata
      have howns : s.files.heap.Owns (a :: LinkedList.addrs cells) := h.files.owns
      have hseg : LinkedList.Seg (s.files.heap.update a none) n cells none := by
        refine hrest.frame fun b hb => Heap.update_other _ _ ?_
        rintro rfl
        exact (List.nodup_cons.1 howns.nodup).1 hb
      have hlen : cells.length ≤ fuel := by
        rw [List.length_cons] at hfuel
        omega
      have hfree : s.files.heap.free a = some (s.files.heap.update a none) :=
        Heap.free_eq ((howns.live a).2 List.mem_cons_self)
      have hfiles : ∀ c ∈ cells, c.2.toFile blocks = c.2.toFile s.blocks := by
        have hmap : (cells.map fun c => c.2.toFile blocks) = cells.map fun c => c.2.toFile s.blocks := map_toFile_same hsame
        exact List.map_inj_left.1 hmap
      rw [hdata, Option.bind_some, hfree, Option.bind_some]
      have hspec := ih (s := { s with files := { s.files with heap := s.files.heap.update a none }, blocks := blocks })
        (p := n) ⟨⟨hseg, howns.free⟩, hleft, fun c hc => sound_frame (h.sound c (List.mem_cons_of_mem _ hc)) fun b hb =>
          hsame b (mem_dataPtrs hc hb)⟩ hlen
      rcases hspec with ⟨s', hrun, hnodes, hblocks, hall⟩ | ⟨hrun, c, hc, hgone⟩
      · refine .inl ⟨s', hrun, hnodes, hblocks, List.forall_mem_cons.2 ⟨hlive, fun c hc => ?_⟩⟩
        rw [← hfiles c hc]
        exact hall c hc
      · refine .inr ⟨hrun, c, List.mem_cons_of_mem _ hc, ?_⟩
        rw [← hfiles c hc]
        exact hgone
    · have hdata : MockMemory.freeData s.blocks f.data = none := hdata
      rw [hdata]
      exact .inr ⟨rfl, (a, f), List.mem_cons_self, hgone⟩

/-- After any run, cleaning up frees every node and every block, each of them once, just when
no call of the run has had `realloc` free a block; otherwise it frees that block again. -/
theorem cleanup_frees_all_iff {calls : List MockCall} {replies : List StorageReply}
    (hrun : store.run init calls = some (s, replies)) :
    (mockStore.Along (fun priv c => ¬ FreesContents priv c) mockStorageInit calls →
      ∃ s', s.cleanup = some s' ∧ (∀ a, s'.files.heap.get a = none) ∧ ∀ b, s'.blocks.get b = none) ∧
    (¬ mockStore.Along (fun priv c => ¬ FreesContents priv c) mockStorageInit calls → s.cleanup = none) := by
  obtain ⟨cells, priv, replies', hlist, h, rfl⟩ : ∃ cells priv replies,
      mockStore.run mockStorageInit calls = some (priv, replies) ∧ Tidy s cells ∧ priv = s.view cells := by
    rcases memory_refines_list calls with ⟨hstuck, -⟩ | ⟨t, priv, replies', ht, hlist, cells, htidy, hview⟩
    · rw [hrun] at hstuck
      cases hstuck
    · rw [hrun] at ht
      cases ht
      exact ⟨cells, priv, replies, hlist, htidy, hview⟩
  have halong := Machine.last_iff_along (I := Allocated) (P := fun priv => ∀ f ∈ priv.files, ¬ f.Dangling)
    (fun priv c priv' reply ha hs => ⟨mockStore_allocated priv c priv' reply ha hs, step_dangling ha hs⟩)
    (fun _ hf => absurd hf List.not_mem_nil) hlist
  have hinit : ∀ f ∈ mockStorageInit.files, ¬ f.Dangling := fun _ hf => absurd hf List.not_mem_nil
  rw [and_iff_right hinit] at halong
  have hfuel := h.files.owns.length_le
  rw [LinkedList.addrs, List.length_map] at hfuel
  rw [← halong]
  rcases freeFiles_spec h hfuel with ⟨s', hclean, hnodes, hblocks, hall⟩ | ⟨hclean, c, hc, hgone⟩
  · refine ⟨fun _ => ⟨s', hclean, hnodes.get_nil, hblocks.get_nil⟩, fun hnot => absurd ?_ hnot⟩
    exact List.forall_mem_map.2 hall
  · exact ⟨fun hall => absurd hgone (hall _ (List.mem_map_of_mem hc)), fun _ => hclean⟩

/-- Three nodes, two of them with blocks, of which one was moved and the other is freed early.
With a file of one byte that is to grow to 2^63 bytes, its block is freed twice. -/
theorem cleanup_frees_all_grown :
    (∃ s replies, store.run init [.op .calm (.writeSync (cstr "a") 0 [1]), .op .calm (.createFile (cstr "b") 0),
        .op .calm (.writeSync (cstr "a") 3 [2, 3]), .op .calm (.writeSync (cstr "c") 0 [4]),
        .op .calm (.deleteFile (cstr "c"))] = some (s, replies) ∧
      ∃ s', s.cleanup = some s' ∧ (∀ a, s'.files.heap.get a = none) ∧ ∀ b, s'.blocks.get b = none) ∧
    (store.run init [.op .calm (.createFile (cstr "a") 1), .op .calm (.writeSync (cstr "a") (2 ^ 63 - 1) [1])]).map
      (fun r => (r.2.map (·.code), r.1.cleanup.isSome)) = some ([.ok, .outOfMemory], false) := by
  obtain ⟨⟨s, replies⟩, hrun⟩ := Option.isSome_iff_exists.1
    (show (store.run init [.op .calm (.writeSync (cstr "a") 0 [1]), .op .calm (.createFile (cstr "b") 0),
      .op .calm (.writeSync (cstr "a") 3 [2, 3]), .op .calm (.writeSync (cstr "c") 0 [4]),
      .op .calm (.deleteFile (cstr "c"))]).isSome = true from rfl)
  refine ⟨⟨s, replies, hrun, (cleanup_frees_all_iff hrun).1 ?_⟩, by decide⟩
  refine ⟨fun h => absurd h.2.2.1 (by decide), fun _ _ hs => ?_⟩
  cases hs
  refine ⟨id, fun _ _ hs => ?_⟩
  cases hs
  refine ⟨fun h => absurd h.2.2.1 (by decide), fun _ _ hs => ?_⟩
  cases hs
  refine ⟨fun h => absurd h.2.2.1 (by decide), fun _ _ hs => ?_⟩
  cases hs
  exact ⟨id, fun _ _ _ => trivial⟩

end

end MockMemory

end XDevice
