import XDevice.Raft.LogArray
import XDevice.Lib.LinkedList
/-!
# The log in memory

`log_entries` is a pointer to an array, and each entry has a pointer to its data. Appending
moves the array and allocates the data; destroying the node frees the array and the node, and
nothing frees the data.
-/
open Lib

namespace XDevice

/-! ## Model -/

/-- `xdevice_raft_log_entry_t`; `data` is a pointer. -/
structure LogCell where
  term : Nat
  index : Nat
  length : Nat
  data : Option Nat

/-- What is read of an entry. -/
def LogCell.entry (blocks : Heap Bytes) (cell : LogCell) : RaftLogEntry :=
  ⟨cell.term, cell.index, (cell.data.bind blocks.get).getD []⟩

/-- A node with the memory of its log, in place of the node's own log. -/
structure RaftMemory where
  node : RaftNode
  arrays : Heap (List LogCell)
  blocks : Heap Bytes
  logEntries : Nat
  logSize : Nat
  logCapacity : Nat

/-- A node that has just been created; `fresh` is what a new array happens to hold. -/
def RaftNode.allocated (node : RaftNode) (fresh : Nat → LogCell) : RaftMemory where
  node := node
  arrays := (Heap.empty.alloc ((List.range node.logCapacity).map fresh)).1
  blocks := .empty
  logEntries := 0
  logSize := 0
  logCapacity := node.logCapacity

/-- A step, and what a read outside the log and a new array would hold. -/
structure MemoryStep where
  step : RaftStep
  outside : Nat → Nat
  fresh : Nat → LogCell

namespace RaftMemory

/-- The node with the entries that are counted in an array. -/
def withCells (m : RaftMemory) (cells : List LogCell) : RaftNode :=
  { m.node with logEntries := (cells.take m.logSize).map (LogCell.entry m.blocks), logCapacity := m.logCapacity }

/-- The node with the entries that are read through its pointers. -/
def view (m : RaftMemory) : Option RaftNode := (m.arrays.get m.logEntries).map m.withCells

/-- An array of so many cells, the first of them as before. -/
def reallocCells (fresh : Nat → LogCell) (cells : List LogCell) (count : Nat) : List LogCell :=
  (List.range count).map fun k => cells.getD k (fresh k)

/-- `realloc` frees the old array; `some none` is its failure, and the array stays. -/
def growCells (env : AppendEnv) (fresh : Nat → LogCell) (m : RaftMemory) : Option (Option RaftMemory) :=
  if m.logCapacity ≤ m.logSize then
    let newCapacity := mul64 m.logCapacity 2
    let size := mul64 sizeofRaftLogEntry newCapacity
    (m.arrays.get m.logEntries).bind fun cells =>
      if env.reallocOk ∧ size ≤ ptrdiffMax then
        (m.arrays.free m.logEntries).map fun arrays =>
          let (arrays, newEntries) := arrays.alloc (reallocCells fresh cells (size / sizeofRaftLogEntry))
          some { m with arrays := arrays, logEntries := newEntries, logCapacity := newCapacity }
      else some none
  else some (some m)

/-- `log_entries[log_size]`, undefined outside the array. -/
def setCell (m : RaftMemory) (cell : LogCell) : Option RaftMemory :=
  (m.arrays.get m.logEntries).bind fun cells =>
    if m.logSize < cells.length then
      (m.arrays.set m.logEntries (cells.set m.logSize cell)).map fun arrays => { m with arrays := arrays }
    else none

/-- `xdevice_raft_append_log`. -/
def appendCell (env : AppendEnv) (fresh : Nat → LogCell) (m : RaftMemory) (data : Bytes) :
    Option (RaftMemory × XdeviceError) :=
  if data.length = 0 then some (m, .invalidParam)
  else if m.node.state ≠ .leader then some (m, .permission)
  else
    (growCells env fresh m).bind fun
      | none => some (m, .outOfMemory)
      | some m =>
        let entry : LogCell := ⟨m.node.currentTerm, add64 m.logSize 1, data.length, none⟩
        if env.mallocOk ∧ data.length ≤ ptrdiffMax then
          let (blocks, p) := m.blocks.alloc data
          (m.setCell { entry with data := some p }).map fun m =>
            ({ m with blocks := blocks, logSize := add64 m.logSize 1 }, .ok)
        else (m.setCell entry).map fun m => (m, .outOfMemory)

/-- What `xdevice_raft_destroy_node` leaves of the log. -/
def destroyLog (m : RaftMemory) : Option (Heap (List LogCell) × Heap Bytes) :=
  (m.arrays.free m.logEntries).map fun arrays => (arrays, m.blocks)

end RaftMemory

/-- The threads read the log through its pointer. -/
def memoryMachine : Machine RaftMemory MemoryStep XdeviceError where
  step m a :=
    match a.step with
    | .appendLog env data => m.appendCell env a.fresh data
    | step => m.view.map fun node =>
      let r := raftStep a.outside node step
      ({ m with node := r.1 }, r.2.2)

/-- The same steps on a node with the list of its entries. -/
def entryMachine : Machine RaftNode MemoryStep XdeviceError where
  step node a :=
    let r := raftStep a.outside node a.step
    some (r.1, r.2.2)

/-! ## Invariant -/

/-- The array is there with all its cells and nothing else, and so are the data of the
entries, each with a pointer of its own. -/
structure LogMemoryOk (m : RaftMemory) (cells : List LogCell) (pointers : List Nat) : Prop where
  array : m.arrays.get m.logEntries = some cells
  arrays : m.arrays.Owns [m.logEntries]
  blocks : m.blocks.Owns pointers
  length : cells.length = m.logCapacity
  size : m.logSize ≤ m.logCapacity
  positive : 0 < m.logCapacity
  bytes : sizeofRaftLogEntry * m.logCapacity ≤ ptrdiffMax
  data : (cells.take m.logSize).map LogCell.data = pointers.map some

section
variable {m : RaftMemory} {cells : List LogCell} {pointers : List Nat} {node : RaftNode} {fresh : Nat → LogCell}

theorem LogMemoryOk.view (h : LogMemoryOk m cells pointers) : m.view = some (m.withCells cells) := by
  unfold RaftMemory.view
  rw [h.array]
  rfl

theorem LogMemoryOk.take_length (h : LogMemoryOk m cells pointers) : (cells.take m.logSize).length = m.logSize := by
  rw [List.length_take, h.length]
  exact Nat.min_eq_left h.size

theorem LogMemoryOk.logSize (h : LogMemoryOk m cells pointers) : (m.withCells cells).logSize = m.logSize :=
  (List.length_map ..).trans h.take_length

theorem reallocCells_take {count n : Nat} (hn : n ≤ cells.length) (hcount : n ≤ count) :
    (RaftMemory.reallocCells fresh cells count).take n = cells.take n := by
  apply List.ext_getElem?
  intro k
  rw [List.getElem?_take, List.getElem?_take]
  split
  · have hcell : k < cells.length := by omega
    have hnew : k < count := by omega
    simp [RaftMemory.reallocCells, hnew, hcell]
  · rfl

/-- The array moves to a new address when the log grows, and the entries with it. -/
theorem growCells_spec (env : AppendEnv) (fresh : Nat → LogCell) (h : LogMemoryOk m cells pointers)
    (hview : m.view = some node) :
    m.growCells env fresh = some none ∧ growLog env node = none ∨
    ∃ m' cells' node', m.growCells env fresh = some (some m') ∧ growLog env node = some node' ∧
      LogMemoryOk m' cells' pointers ∧ m'.view = some node' ∧ m'.logSize < m'.logCapacity := by
  have hsize := h.size
  have hpos := h.positive
  rw [h.view] at hview
  cases hview
  have hcapacity : (m.withCells cells).logCapacity = m.logCapacity := rfl
  unfold RaftMemory.growCells growLog
  rw [h.logSize, hcapacity]
  dsimp only
  by_cases hfull : m.logCapacity ≤ m.logSize
  · obtain ⟨hnew, hbytes⟩ := doubled_capacity h.bytes
    rw [if_pos hfull, if_pos hfull, h.array, Option.bind_some, hnew, hbytes]
    by_cases halloc : env.reallocOk = true ∧ sizeofRaftLogEntry * (m.logCapacity * 2) ≤ ptrdiffMax
    · have hdiv : sizeofRaftLogEntry * (m.logCapacity * 2) / sizeofRaftLogEntry = m.logCapacity * 2 :=
        Nat.mul_div_cancel_left _ (by decide)
      have hlive : (m.arrays.get m.logEntries).isSome = true := Option.isSome_of_eq_some h.array
      have htake : (RaftMemory.reallocCells fresh cells (m.logCapacity * 2)).take m.logSize = cells.take m.logSize :=
        reallocCells_take (h.length ▸ hsize) (by omega)
      have hlength : (RaftMemory.reallocCells fresh cells (m.logCapacity * 2)).length = m.logCapacity * 2 := by
        simp [RaftMemory.reallocCells]
      rw [if_pos halloc, if_pos halloc, Heap.free_eq hlive, hdiv]
      generalize RaftMemory.reallocCells fresh cells (m.logCapacity * 2) = grown at htake hlength ⊢
      have hok : LogMemoryOk { m with
          arrays := ((m.arrays.update m.logEntries none).alloc grown).1
          logEntries := (m.arrays.update m.logEntries none).next
          logCapacity := m.logCapacity * 2 } grown pointers := by
        refine ⟨Heap.update_self .., (Heap.Owns.free h.arrays).alloc grown, h.blocks, hlength, ?_, ?_, halloc.2, ?_⟩
        · exact Nat.le_trans hsize (Nat.le_mul_of_pos_right _ Nat.two_pos)
        · exact Nat.mul_pos hpos Nat.two_pos
        · rw [htake]
          exact h.data
      have hview := hok.view
      unfold RaftMemory.withCells at hview
      rw [htake] at hview
      exact .inr ⟨_, _, _, rfl, rfl, hok, hview, by dsimp only; omega⟩
    · rw [if_neg halloc, if_neg halloc]
      exact .inl ⟨rfl, rfl⟩
  · rw [if_neg hfull, if_neg hfull]
    exact .inr ⟨m, cells, _, rfl, rfl, h, h.view, by omega⟩

/-- A write behind the entries finds the array there. -/
theorem LogMemoryOk.setCell (h : LogMemoryOk m cells pointers) (hroom : m.logSize < m.logCapacity) (cell : LogCell) :
    m.setCell cell = some { m with arrays := m.arrays.update m.logEntries (some (cells.set m.logSize cell)) } := by
  have hlive : (m.arrays.get m.logEntries).isSome = true := Option.isSome_of_eq_some h.array
  unfold RaftMemory.setCell
  rw [h.array, Option.bind_some, if_pos (by rw [h.length]; exact hroom), Heap.set_eq hlive]
  rfl

/-- An entry that does not count may hold anything. -/
theorem LogMemoryOk.scratch (h : LogMemoryOk m cells pointers) (cell : LogCell) :
    LogMemoryOk { m with arrays := m.arrays.update m.logEntries (some (cells.set m.logSize cell)) }
      (cells.set m.logSize cell) pointers := by
  refine ⟨Heap.update_self .., h.arrays.update List.mem_cons_self _, h.blocks, ?_, h.size, h.positive, h.bytes, ?_⟩
  · exact (List.length_set ..).trans h.length
  · dsimp only
    rw [List.take_set_of_le (Nat.le_refl _)]
    exact h.data

theorem entry_congr {blocks blocks' : Heap Bytes} {cell : LogCell}
    (h : ∀ p, cell.data = some p → blocks'.get p = blocks.get p) : cell.entry blocks' = cell.entry blocks := by
  unfold LogCell.entry
  cases hp : cell.data with
  | none => rfl
  | some p => rw [Option.bind_some, Option.bind_some, h p hp]

/-- New data leave those of the entries alone. -/
theorem LogMemoryOk.entries_alloc (h : LogMemoryOk m cells pointers) (data : Bytes) :
    (cells.take m.logSize).map (LogCell.entry (m.blocks.alloc data).1) =
      (cells.take m.logSize).map (LogCell.entry m.blocks) := by
  refine List.map_congr_left fun cell hcell => entry_congr fun p hp => ?_
  have hmem : some p ∈ pointers.map some := by
    rw [← h.data, ← hp]
    exact List.mem_map_of_mem hcell
  obtain ⟨q, hq, he⟩ := List.mem_map.1 hmem
  cases he
  refine Heap.update_other _ _ ?_
  rintro rfl
  exact h.blocks.next_notMem hq

/-- The entry that is filled and counted is the last of the log. -/
theorem LogMemoryOk.push (h : LogMemoryOk m cells pointers) (hroom : m.logSize < m.logCapacity) (term index : Nat)
    (data : Bytes) : ∃ pointers',
    LogMemoryOk { m with
      arrays := m.arrays.update m.logEntries (some (cells.set m.logSize ⟨term, index, data.length, some m.blocks.next⟩))
      blocks := (m.blocks.alloc data).1
      logSize := m.logSize + 1 } (cells.set m.logSize ⟨term, index, data.length, some m.blocks.next⟩) pointers' ∧
    ((cells.set m.logSize ⟨term, index, data.length, some m.blocks.next⟩).take (m.logSize + 1)).map
        (LogCell.entry (m.blocks.alloc data).1) =
      (cells.take m.logSize).map (LogCell.entry m.blocks) ++ [⟨term, index, data⟩] := by
  have hin : m.logSize < cells.length := h.length ▸ hroom
  have htake : (cells.set m.logSize ⟨term, index, data.length, some m.blocks.next⟩).take (m.logSize + 1) =
      cells.take m.logSize ++ [⟨term, index, data.length, some m.blocks.next⟩] := by
    rw [List.take_add_one, List.take_set_of_le (Nat.le_refl _), List.getElem?_set_self hin]
    rfl
  have hperm : (m.blocks.next :: pointers).Perm (pointers ++ [m.blocks.next]) := (List.perm_append_singleton _ _).symm
  refine ⟨pointers ++ [m.blocks.next], ⟨Heap.update_self .., h.arrays.update List.mem_cons_self _,
    (h.blocks.alloc data).perm hperm, (List.length_set ..).trans h.length, hroom, h.positive, h.bytes, ?_⟩, ?_⟩
  · dsimp only
    rw [htake, List.map_append, List.map_append, h.data]
    rfl
  · have hnew : (m.blocks.alloc data).1.get m.blocks.next = some data := Heap.update_self ..
    rw [htake, List.map_append, h.entries_alloc]
    simp [LogCell.entry, hnew]

end

/-! ## Steps -/

/-- The memory holds what the node with its entries does. -/
def MemoryRep (m : RaftMemory) (node : RaftNode) : Prop :=
  m.view = some node ∧ ∃ cells pointers, LogMemoryOk m cells pointers

section
variable {m : RaftMemory} {node : RaftNode}

theorem appendCell_spec (env : AppendEnv) (fresh : Nat → LogCell) (data : Bytes) (h : MemoryRep m node) :
    ∃ m', m.appendCell env fresh data = some (m', (xdeviceRaftAppendLog env node data).2) ∧
      MemoryRep m' (xdeviceRaftAppendLog env node data).1 := by
  obtain ⟨hview, cells, pointers, hok⟩ := h
  have hstate : node.state = m.node.state := by
    rw [hok.view] at hview
    cases hview
    rfl
  unfold RaftMemory.appendCell xdeviceRaftAppendLog
  rw [hstate]
  by_cases hdata : data.length = 0
  · rw [if_pos hdata, if_pos hdata]
    exact ⟨m, rfl, hview, cells, pointers, hok⟩
  rw [if_neg hdata, if_neg hdata]
  by_cases hlead : m.node.state ≠ .leader
  · rw [if_pos hlead, if_pos hlead]
    exact ⟨m, rfl, hview, cells, pointers, hok⟩
  rw [if_neg hlead, if_neg hlead]
  rcases growCells_spec env fresh hok hview with
    ⟨hgrow, hlog⟩ | ⟨m1, cells1, node1, hgrow, hlog, hok1, hview1, hroom⟩
  · rw [hgrow, hlog]
    exact ⟨m, rfl, hview, cells, pointers, hok⟩
  rw [hgrow, hlog, Option.bind_some]
  rw [hok1.view] at hview1
  cases hview1
  dsimp only
  by_cases hmalloc : env.mallocOk = true ∧ data.length ≤ ptrdiffMax
  · have hcapacity := hok1.bytes
    have hadd : add64 m1.logSize 1 = m1.logSize + 1 := by
      simp only [sizeofRaftLogEntry, ptrdiffMax] at hcapacity
      exact add64_eq (by omega)
    obtain ⟨pointers', hpush, hentries⟩ := hok1.push hroom m1.node.currentTerm (m1.logSize + 1) data
    rw [if_pos hmalloc, if_pos hmalloc, hok1.logSize, hadd, hok1.setCell hroom, Option.map_some]
    dsimp only
    rw [hadd]
    refine ⟨_, rfl, ?_, _, pointers', hpush⟩
    have hview2 := hpush.view
    unfold RaftMemory.withCells at hview2
    rw [hentries] at hview2
    exact hview2
  · have hcell := hok1.scratch ⟨m1.node.currentTerm, add64 m1.logSize 1, data.length, none⟩
    rw [if_neg hmalloc, if_neg hmalloc, hok1.setCell hroom, Option.map_some]
    refine ⟨_, rfl, ?_, _, pointers, hcell⟩
    have hview2 := hcell.view
    unfold RaftMemory.withCells at hview2
    rw [List.take_set_of_le (Nat.le_refl _)] at hview2
    exact hview2

/-- A step that does not append changes the node only. -/
theorem memoryRep_other (h : MemoryRep m node) {node' : RaftNode} (hsame : SameLog node node') :
    MemoryRep { m with node := node' } node' := by
  obtain ⟨hview, cells, pointers, hok⟩ := h
  have hok' : LogMemoryOk { m with node := node' } cells pointers :=
    ⟨hok.array, hok.arrays, hok.blocks, hok.length, hok.size, hok.positive, hok.bytes, hok.data⟩
  refine ⟨?_, cells, pointers, hok'⟩
  have heq := Option.some.inj (hok.view.symm.trans hview)
  have hentries : node'.logEntries = (cells.take m.logSize).map (LogCell.entry m.blocks) :=
    hsame.1.trans (congrArg RaftNode.logEntries heq).symm
  have hcapacity : node'.logCapacity = m.logCapacity := hsame.2.trans (congrArg RaftNode.logCapacity heq).symm
  rw [hok'.view, RaftMemory.withCells, ← hentries, ← hcapacity]

/-- With its pointers the log does what it does without. -/
theorem memory_lockstep : Machine.Lockstep memoryMachine entryMachine MemoryRep := by
  rintro m node ⟨step, outside, fresh⟩ h
  have hother : ∀ step, memoryMachine.step m ⟨step, outside, fresh⟩ = m.view.map (fun node =>
        ({ m with node := (raftStep outside node step).1 }, (raftStep outside node step).2.2)) →
      SameLog node (raftStep outside node step).1 →
      ∃ m' node' code, memoryMachine.step m ⟨step, outside, fresh⟩ = some (m', code) ∧
        entryMachine.step node ⟨step, outside, fresh⟩ = some (node', code) ∧ MemoryRep m' node' := by
    intro step hstep hsame
    rw [h.1] at hstep
    exact ⟨_, _, _, hstep, rfl, memoryRep_other h hsame⟩
  cases step with
  | appendLog env data =>
    obtain ⟨m', hcall, hrep⟩ := appendCell_spec env fresh data h
    exact .inr ⟨m', _, _, hcall, rfl, hrep⟩
  | election env => exact .inr (hother _ rfl (sameLog_electionTrace env node))
  | heartbeat env => exact .inr (hother _ rfl (sameLog_heartbeatTrace outside env node))
  | addNode newNode => exact .inr (hother _ rfl (sameLog_addNode node newNode))

end

/-! ## Runs -/

section
variable {node : RaftNode}

theorem memoryRep_created {avail : Bool} {clock : Clock} {nodeId : CString}
    (hcreate : xdeviceRaftCreateNode avail clock nodeId = some node) (fresh : Nat → LogCell) :
    MemoryRep (node.allocated fresh) node := by
  have hnew : node.logEntries = [] ∧ node.logCapacity = 1024 := by
    unfold xdeviceRaftCreateNode at hcreate
    split at hcreate
    · cases hcreate
      exact ⟨rfl, rfl⟩
    · cases hcreate
  have harray : (node.allocated fresh).arrays.get 0 = some ((List.range node.logCapacity).map fresh) :=
    Heap.update_self .empty 0 (some ((List.range node.logCapacity).map fresh))
  have hok : LogMemoryOk (node.allocated fresh) ((List.range node.logCapacity).map fresh) [] := by
    refine ⟨harray, Heap.owns_empty.alloc _, Heap.owns_empty, ?_, Nat.zero_le _, ?_, ?_, rfl⟩
    · rw [List.length_map, List.length_range]
      rfl
    · show 0 < node.logCapacity
      rw [hnew.2]
      decide
    · show sizeofRaftLogEntry * node.logCapacity ≤ ptrdiffMax
      rw [hnew.2]
      decide
  refine ⟨?_, _, _, hok⟩
  rw [hok.view]
  show some { node with logEntries := [], logCapacity := node.logCapacity } = some node
  rw [← hnew.1]

/-- Each entry has a block that holds its data. -/
theorem LogMemoryOk.entries_data {m : RaftMemory} {cells : List LogCell} {pointers : List Nat}
    (h : LogMemoryOk m cells pointers) :
    pointers.map m.blocks.get = ((cells.take m.logSize).map (LogCell.entry m.blocks)).map fun entry => some entry.data := by
  have hblock : ∀ p ∈ pointers, m.blocks.get p = some (((some p).bind m.blocks.get).getD []) := by
    intro p hp
    obtain ⟨data, hdata⟩ := h.blocks.get hp
    rw [Option.bind_some, hdata]
    rfl
  calc
    pointers.map m.blocks.get = (pointers.map some).map fun p => some ((p.bind m.blocks.get).getD []) := by
      rw [List.map_map]
      exact List.map_congr_left hblock
    _ = ((cells.take m.logSize).map LogCell.data).map fun p => some ((p.bind m.blocks.get).getD []) := by rw [h.data]
    _ = ((cells.take m.logSize).map (LogCell.entry m.blocks)).map fun entry => some entry.data := by
      rw [List.map_map, List.map_map]
      rfl

theorem entryMachine_run (node : RaftNode) (as : List MemoryStep) : entryMachine.run node as ≠ none := by
  induction as generalizing node with
  | nil => exact Option.some_ne_none _
  | cons a as ih =>
    rw [Machine.run]
    dsimp only [entryMachine]
    rw [Ne, Option.map_eq_none_iff]
    exact ih _

/-- A node's steps and appends find its array and the data of its entries where their pointers
say; destroying the node frees the array and leaves a block for each entry of the log. -/
theorem destroy_leaves_data {avail : Bool} {clock : Clock} {nodeId : CString}
    (hcreate : xdeviceRaftCreateNode avail clock nodeId = some node) (fresh : Nat → LogCell) (as : List MemoryStep) :
    ∃ m node' codes arrays pointers, memoryMachine.run (node.allocated fresh) as = some (m, codes) ∧
      entryMachine.run node as = some (node', codes) ∧ m.view = some node' ∧
      m.destroyLog = some (arrays, m.blocks) ∧ arrays.Owns [] ∧ m.blocks.Owns pointers ∧
      pointers.map m.blocks.get = node'.logEntries.map fun entry => some entry.data := by
  rcases memory_lockstep.run (memoryRep_created hcreate fresh) as with ⟨-, hstuck⟩ | ⟨m, node', codes, hrun, hentries, hrep⟩
  · exact absurd hstuck (entryMachine_run node as)
  obtain ⟨hview, cells, pointers, hok⟩ := hrep
  have hlive : (m.arrays.get m.logEntries).isSome = true := Option.isSome_of_eq_some hok.array
  have hdestroy : m.destroyLog = some (m.arrays.update m.logEntries none, m.blocks) := by
    unfold RaftMemory.destroyLog
    rw [Heap.free_eq hlive]
    rfl
  refine ⟨m, node', codes, _, pointers, hrun, hentries, hview, hdestroy, hok.arrays.free, hok.blocks, ?_⟩
  have heq := Option.some.inj (hok.view.symm.trans hview)
  rw [← heq]
  exact hok.entries_data

/-- A leader appends twice, the first time when there is no memory for the data. -/
def leaderAppends : List MemoryStep :=
  [.addNode (cstr "A"), .election (votesEnv true), .appendLog ⟨true, false⟩ [1, 2], .appendLog ⟨true, true⟩ [3]].map
    fun step => ⟨step, fun _ => 0, fun _ => ⟨0, 0, 0, none⟩⟩

theorem destroy_leaves_data_leader : ∃ m node' codes arrays pointers,
    memoryMachine.run (newNodeA.allocated fun _ => ⟨0, 0, 0, none⟩) leaderAppends = some (m, codes) ∧
      entryMachine.run newNodeA leaderAppends = some (node', codes) ∧ m.view = some node' ∧
      m.destroyLog = some (arrays, m.blocks) ∧ arrays.Owns [] ∧ m.blocks.Owns pointers ∧
      pointers.map m.blocks.get = node'.logEntries.map fun entry => some entry.data :=
  destroy_leaves_data newNodeA_created _ leaderAppends

end

end XDevice
