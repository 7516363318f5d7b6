import XDevice.Raft.TermDiscipline
import Mathlib.Data.List.Infix
/-!
# The log as an array

`log_entries` as the block of slots that it is: the block grows by `realloc`, and a slot
is written before its data has memory. The rest of the node reads the slots below
`log_size`.
-/
open Lib

namespace XDevice

/-! ## Model -/

/-- `xdevice_raft_log_entry_t`; `data` is the block it points to, or `none` for null. -/
structure LogSlot where
  term : Nat
  index : Nat
  length : Nat
  data : Option Bytes
  deriving DecidableEq

/-- `log_entries`, `log_size` and `log_capacity`. -/
structure LogArray where
  slots : List LogSlot
  size : Nat
  capacity : Nat

/-- A node with its array, which `view` puts in place of the node's own log. -/
structure StoredNode where
  node : RaftNode
  log : LogArray

namespace LogSlot

def entry (slot : LogSlot) : RaftLogEntry := ⟨slot.term, slot.index, slot.data.getD []⟩

end LogSlot

namespace LogArray

/-- The slots below `log_size`. -/
def entries (log : LogArray) : List LogSlot := log.slots.take log.size

end LogArray

namespace StoredNode

/-- The node with the entries that its array holds. -/
def view (s : StoredNode) : RaftNode :=
  { s.node with logEntries := s.log.entries.map LogSlot.entry, logCapacity := s.log.capacity }

@[simp] theorem view_state (s : StoredNode) : s.view.state = s.node.state := rfl

@[simp] theorem view_logCapacity (s : StoredNode) : s.view.logCapacity = s.log.capacity := rfl

end StoredNode

/-- `fresh` is what a new block happens to hold. -/
def RaftNode.stored (fresh : Nat → LogSlot) (node : RaftNode) : StoredNode :=
  ⟨node, ⟨(List.range node.logCapacity).map fresh, 0, node.logCapacity⟩⟩

/-- A block of so many slots, the first of them as before. -/
def reallocSlots (fresh : Nat → LogSlot) (slots : List LogSlot) (count : Nat) : List LogSlot :=
  (List.range count).map fun k => slots.getD k (fresh k)

/-- `growLog` on the array. -/
def growSlots (env : AppendEnv) (fresh : Nat → LogSlot) (log : LogArray) : Option LogArray :=
  if log.capacity ≤ log.size then
    let newCapacity := mul64 log.capacity 2
    let size := mul64 sizeofRaftLogEntry newCapacity
    if env.reallocOk ∧ size ≤ ptrdiffMax then
      some { log with slots := reallocSlots fresh log.slots (size / sizeofRaftLogEntry), capacity := newCapacity }
    else none
  else some log

/-- `xdevice_raft_append_log` on the array; a slot outside the block is undefined. -/
def appendSlot (env : AppendEnv) (fresh : Nat → LogSlot) (s : StoredNode) (data : Bytes) :
    Option (StoredNode × XdeviceError) :=
  if data.length = 0 then some (s, .invalidParam)
  else if s.node.state ≠ .leader then some (s, .permission)
  else
    match growSlots env fresh s.log with
    | none => some (s, .outOfMemory)
    | some log =>
      if log.size < log.slots.length then
        let entry : LogSlot := ⟨s.node.currentTerm, add64 log.size 1, data.length, none⟩
        if env.mallocOk ∧ data.length ≤ ptrdiffMax then
          let slots := log.slots.set log.size { entry with data := some data }
          some ({ s with log := { log with slots := slots, size := add64 log.size 1 } }, .ok)
        else some ({ s with log := { log with slots := log.slots.set log.size entry } }, .outOfMemory)
      else none

/-- A step, and what a read outside the log and a new block would hold. -/
structure StoredStep where
  step : RaftStep
  outside : Nat → Nat
  fresh : Nat → LogSlot

def storedMachine : Machine StoredNode StoredStep XdeviceError where
  step s a :=
    match a.step with
    | .appendLog env data => appendSlot env a.fresh s data
    | step =>
      let r := raftStep a.outside s.view step
      some ({ s with node := r.1 }, r.2.2)

/-! ## Invariant -/

/-- Every slot of the capacity is in the block, and every entry is where its index says. -/
structure LogArrayOk (log : LogArray) : Prop where
  size : log.size ≤ log.capacity
  block : log.slots.length = log.capacity
  positive : 0 < log.capacity
  bytes : sizeofRaftLogEntry * log.capacity ≤ ptrdiffMax
  index : ∀ k slot, log.entries[k]? = some slot → slot.index = k + 1

/-- The terms of the entries rise, up to the node's own. -/
structure StoredNodeOk (s : StoredNode) : Prop where
  log : LogArrayOk s.log
  terms : s.log.entries.Pairwise fun e e' => e.term ≤ e'.term
  current : ∀ e ∈ s.log.entries, e.term ≤ s.node.currentTerm

section
variable {env : AppendEnv} {fresh : Nat → LogSlot} {log log' : LogArray} {s s' : StoredNode} {data : Bytes}
  {code : XdeviceError}

theorem LogArrayOk.entries_length (h : LogArrayOk log) : log.entries.length = log.size := by
  have hsize := h.size
  unfold LogArray.entries
  rw [List.length_take, h.block]
  omega

theorem LogArrayOk.capacity_lt (h : LogArrayOk log) : log.capacity + 1 < 2 ^ 63 := by
  have hbytes := h.bytes
  simp only [sizeofRaftLogEntry, ptrdiffMax] at hbytes
  omega

/-! ## Growth -/

theorem reallocSlots_take {slots : List LogSlot} {count n : Nat} (hn : n ≤ slots.length) (hcount : n ≤ count) :
    (reallocSlots fresh slots count).take n = slots.take n := by
  apply List.ext_getElem?
  intro k
  rw [List.getElem?_take, List.getElem?_take]
  split
  · have hslot : k < slots.length := by omega
    have hnew : k < count := by omega
    simp [reallocSlots, hnew, hslot]
  · rfl

/-- The block grows to what was asked for, and keeps the entries. -/
theorem growSlots_spec (h : LogArrayOk log) (hg : growSlots env fresh log = some log') :
    LogArrayOk log' ∧ log'.size = log.size ∧ log'.entries = log.entries ∧ log'.size < log'.capacity := by
  have hsize := h.size
  unfold growSlots at hg
  split at hg
  · rename_i hfull
    dsimp only at hg
    obtain ⟨hnew, hbytes⟩ := doubled_capacity h.bytes
    rw [hnew, hbytes] at hg
    split at hg
    · rename_i halloc
      cases hg
      have hcount : sizeofRaftLogEntry * (log.capacity * 2) / sizeofRaftLogEntry = log.capacity * 2 :=
        Nat.mul_div_cancel_left _ (by decide)
      rw [hcount]
      have hkeep : LogArray.entries ⟨reallocSlots fresh log.slots (log.capacity * 2), log.size, log.capacity * 2⟩ =
          log.entries := reallocSlots_take (h.block ▸ hsize) (by dsimp only; omega)
      have hpos := h.positive
      refine ⟨⟨?_, ?_, ?_, halloc.2, ?_⟩, rfl, hkeep, ?_⟩
      · dsimp only
        omega
      · simp [reallocSlots]
      · dsimp only
        omega
      · rw [hkeep]
        exact h.index
      · dsimp only
        omega
    · cases hg
  · cases hg
    exact ⟨h, rfl, rfl, by omega⟩

/-! ## Append -/

/-- What a call does: it fails before it touches the log, or it fails after the log has
grown, or it adds one entry. -/
inductive Appends (s : StoredNode) (data : Bytes) : StoredNode → XdeviceError → Prop
  | invalidParam (hdata : data.length = 0) : Appends s data s .invalidParam
  | permission (hdata : data.length ≠ 0) (hstate : s.node.state ≠ .leader) : Appends s data s .permission
  | outOfMemory {log : LogArray} (hdata : data.length ≠ 0) (hstate : s.node.state = .leader) (hlog : LogArrayOk log)
      (hsize : log.size = s.log.size) (hentries : log.entries = s.log.entries) :
      Appends s data { s with log := log } .outOfMemory
  | ok {log : LogArray} (hdata : data.length ≠ 0) (hstate : s.node.state = .leader) (hlog : LogArrayOk log)
      (hentries : log.entries =
        s.log.entries ++ [⟨s.node.currentTerm, s.log.size + 1, data.length, some data⟩]) :
      Appends s data { s with log := log } .ok

/-- A slot past the entries may be written. -/
theorem LogArrayOk.scratch (h : LogArrayOk log) (slot : LogSlot) :
    LogArrayOk { log with slots := log.slots.set log.size slot } ∧
      LogArray.entries { log with slots := log.slots.set log.size slot } = log.entries := by
  have hkeep : LogArray.entries { log with slots := log.slots.set log.size slot } = log.entries := by
    unfold LogArray.entries
    exact List.take_set_of_le (Nat.le_refl _)
  refine ⟨⟨h.size, ?_, h.positive, h.bytes, ?_⟩, hkeep⟩
  · exact (List.length_set ..).trans h.block
  · rw [hkeep]
    exact h.index

/-- The slot past the entries becomes the last of them. -/
theorem LogArrayOk.push (h : LogArrayOk log) (hroom : log.size < log.capacity) (slot : LogSlot)
    (hslot : slot.index = log.size + 1) :
    LogArrayOk { log with slots := log.slots.set log.size slot, size := log.size + 1 } ∧
      LogArray.entries { log with slots := log.slots.set log.size slot, size := log.size + 1 } =
        log.entries ++ [slot] := by
  have hin : log.size < log.slots.length := h.block ▸ hroom
  have hadd : LogArray.entries { log with slots := log.slots.set log.size slot, size := log.size + 1 } =
      log.entries ++ [slot] := by
    unfold LogArray.entries
    rw [List.take_add_one, List.take_set_of_le (Nat.le_refl _), List.getElem?_set_self hin]
    rfl
  refine ⟨⟨hroom, ?_, h.positive, h.bytes, ?_⟩, hadd⟩
  · exact (List.length_set ..).trans h.block
  · intro k e he
    rw [hadd] at he
    rcases Nat.lt_or_ge k log.entries.length with hk | hk
    · rw [List.getElem?_append_left hk] at he
      exact h.index k e he
    · rw [List.getElem?_append_right hk, h.entries_length] at he
      rw [h.entries_length] at hk
      have hlast : k - log.size = 0 := by
        have := (List.getElem?_eq_some_iff.1 he).1
        simp only [List.length_singleton] at this
        omega
      rw [hlast] at he
      cases he
      omega

theorem appendSlot_spec (env : AppendEnv) (fresh : Nat → LogSlot) (h : LogArrayOk s.log) (data : Bytes) :
    ∃ s' code, appendSlot env fresh s data = some (s', code) ∧ Appends s data s' code := by
  unfold appendSlot
  split
  · rename_i hdata
    exact ⟨s, _, rfl, .invalidParam hdata⟩
  · rename_i hdata
    split
    · rename_i hstate
      exact ⟨s, _, rfl, .permission hdata hstate⟩
    · rename_i hstate
      have hstate := Decidable.not_not.1 hstate
      cases hg : growSlots env fresh s.log with
      | none => exact ⟨s, _, rfl, .outOfMemory hdata hstate h rfl rfl⟩
      | some log =>
        obtain ⟨hlog, hsize, hentries, hroom⟩ := growSlots_spec h hg
        have hcapacity := hlog.capacity_lt
        have hadd : add64 log.size 1 = log.size + 1 := add64_eq (by omega)
        dsimp only
        rw [if_pos (hlog.block ▸ hroom), hadd]
        split
        · obtain ⟨hok, hnew⟩ := hlog.push hroom ⟨s.node.currentTerm, log.size + 1, data.length, some data⟩ rfl
          refine ⟨_, _, rfl, .ok hdata hstate hok ?_⟩
          rw [hnew, hentries, hsize]
        · obtain ⟨hok, hkeep⟩ := hlog.scratch ⟨s.node.currentTerm, log.size + 1, data.length, none⟩
          exact ⟨_, _, rfl, .outOfMemory hdata hstate hok hsize (hkeep.trans hentries)⟩

/-! ## The same node -/

theorem growSlots_view (fresh : Nat → LogSlot) (h : LogArrayOk s.log) :
    growLog env s.view = (growSlots env fresh s.log).map fun log => StoredNode.view ⟨s.node, log⟩ := by
  have hsize : s.view.logSize = s.log.size := (List.length_map ..).trans h.entries_length
  unfold growLog
  rw [hsize, StoredNode.view_logCapacity]
  cases hg : growSlots env fresh s.log with
  | none =>
    unfold growSlots at hg
    split at hg
    · rename_i hfull
      dsimp only at hg ⊢
      rw [if_pos hfull]
      split at hg
      · cases hg
      · rename_i hfail
        exact if_neg hfail
    · cases hg
  | some log =>
    obtain ⟨-, -, hentries, -⟩ := growSlots_spec h hg
    rw [Option.map_some]
    unfold StoredNode.view
    rw [hentries]
    unfold growSlots at hg
    split at hg
    · rename_i hfull
      dsimp only at hg ⊢
      rw [if_pos hfull]
      split at hg
      · rename_i halloc
        cases hg
        exact if_pos halloc
      · cases hg
    · rename_i hroom
      cases hg
      exact if_neg hroom

theorem appendSlot_view (h : LogArrayOk s.log) (hs : appendSlot env fresh s data = some (s', code)) :
    xdeviceRaftAppendLog env s.view data = (s'.view, code) := by
  unfold appendSlot at hs
  unfold xdeviceRaftAppendLog
  split at hs
  · rename_i hdata
    cases hs
    exact if_pos hdata
  · rename_i hdata
    rw [if_neg hdata]
    split at hs
    · rename_i hstate
      cases hs
      exact if_pos hstate
    · rename_i hstate
      rw [StoredNode.view_state, if_neg hstate, growSlots_view fresh h]
      cases hg : growSlots env fresh s.log with
      | none =>
        rw [hg] at hs
        cases hs
        rfl
      | some log =>
        obtain ⟨hlog, hsize, -, hroom⟩ := growSlots_spec h hg
        have hcapacity := hlog.capacity_lt
        have hadd : add64 log.size 1 = log.size + 1 := add64_eq (by omega)
        have hcount : RaftNode.logSize (StoredNode.view ⟨s.node, log⟩) = log.size :=
          (List.length_map ..).trans hlog.entries_length
        rw [hg] at hs
        dsimp only [Option.map_some] at hs ⊢
        rw [if_pos (hlog.block ▸ hroom)] at hs
        -- the entry is counted only once its data has a copy
        split at hs
        · rename_i halloc
          obtain ⟨-, hnew⟩ := hlog.push hroom ⟨s.node.currentTerm, log.size + 1, data.length, some data⟩ rfl
          cases hs
          rw [if_pos halloc, hcount]
          unfold StoredNode.view
          dsimp only
          rw [hadd, hnew, List.map_append]
          rfl
        · rename_i hfail
          obtain ⟨-, hkeep⟩ := hlog.scratch ⟨s.node.currentTerm, add64 log.size 1, data.length, none⟩
          cases hs
          rw [if_neg hfail]
          unfold StoredNode.view
          dsimp only
          rw [hkeep]

end

/-- The log and its capacity stay. -/
def SameLog (node node' : RaftNode) : Prop :=
  node'.logEntries = node.logEntries ∧ node'.logCapacity = node.logCapacity

theorem SameLog.trans {node node' node'' : RaftNode} (h : SameLog node node') (h' : SameLog node' node'') :
    SameLog node node'' := ⟨h'.1.trans h.1, h'.2.trans h.2⟩

theorem sameLog_electionTrace (env : ElectionEnv) (node : RaftNode) : SameLog node (electionTrace env node).1 := by
  have hfinish : ∀ (node : RaftNode) (votes : Nat), SameLog node (finishElection node votes) := by
    intro node votes
    unfold finishElection
    split <;> exact ⟨rfl, rfl⟩
  rw [electionTrace_fst]
  rcases electionIteration_cases env node with he | ⟨-, he | ⟨term, clock, he⟩⟩
  · rw [he]
    exact ⟨rfl, rfl⟩
  · rw [he]
    exact SameLog.trans ⟨rfl, rfl⟩ (hfinish _ _)
  · rw [he]
    exact ⟨rfl, rfl⟩

theorem sameLog_handleAppendResponse (node : RaftNode) (i : Nat) (req : AppendRequest) (success : Bool) :
    SameLog node (handleAppendResponse node i req success) := by
  obtain ⟨nextIndex, matchIndex, he⟩ := handleAppendResponse_changes node i req success
  rw [he]
  exact ⟨rfl, rfl⟩

theorem sameLog_heartbeatTraceFrom (outside : Nat → Nat) (env : HeartbeatEnv) (node : RaftNode) (i : Nat)
    (ids : List CString) : SameLog node (heartbeatTraceFrom outside env node i ids).1 := by
  induction ids generalizing node i with
  | nil => exact ⟨rfl, rfl⟩
  | cons id ids ih =>
    unfold heartbeatTraceFrom
    split
    · exact ih node (i + 1)
    · dsimp only
      cases env.sendAppendEntries i (appendRequestAt (outside i) node i) with
      | none => exact ih node (i + 1)
      | some resp =>
        dsimp only
        split
        · exact ⟨rfl, rfl⟩
        · exact (sameLog_handleAppendResponse ..).trans (ih _ (i + 1))

theorem sameLog_heartbeatTrace (outside : Nat → Nat) (env : HeartbeatEnv) (node : RaftNode) :
    SameLog node (heartbeatTrace outside env node).1 := by
  unfold heartbeatTrace
  split
  · exact sameLog_heartbeatTraceFrom outside env node 0 node.clusterNodes
  · exact ⟨rfl, rfl⟩

theorem sameLog_addNode (node : RaftNode) (newNode : CString) :
    SameLog node (xdeviceRaftAddNodeToCluster node newNode).1 := by
  obtain ⟨clusterNodes, he⟩ := addNode_changes node newNode
  rw [he]
  exact ⟨rfl, rfl⟩

theorem SameLog.view {s : StoredNode} {node : RaftNode} (h : SameLog s.view node) :
    StoredNode.view { s with node := node } = node := by
  obtain ⟨hentries, hcapacity⟩ := h
  unfold StoredNode.view at hentries hcapacity ⊢
  dsimp only at hentries hcapacity ⊢
  rw [← hentries, ← hcapacity]

/-- A step on the array is the step on the entries. -/
theorem storedStep_view {s s' : StoredNode} {a : StoredStep} {code : XdeviceError} (h : LogArrayOk s.log)
    (hs : storedMachine.step s a = some (s', code)) :
    ∃ events, raftStep a.outside s.view a.step = (s'.view, events, code) := by
  obtain ⟨step, outside, fresh⟩ := a
  have hother : ∀ step, SameLog s.view (raftStep outside s.view step).1 → ∃ events, raftStep outside s.view step =
      (StoredNode.view { s with node := (raftStep outside s.view step).1 }, events, (raftStep outside s.view step).2.2) :=
    fun step hsame => ⟨_, Prod.ext hsame.view.symm rfl⟩
  cases step with
  | appendLog env data =>
    have hcall := appendSlot_view h hs
    refine ⟨[], ?_⟩
    dsimp only [raftStep]
    rw [hcall]
  | election env =>
    cases hs
    exact hother (.election env) (sameLog_electionTrace env s.view)
  | heartbeat env =>
    cases hs
    exact hother (.heartbeat env) (sameLog_heartbeatTrace outside env s.view)
  | addNode newNode =>
    cases hs
    exact hother (.addNode newNode) (sameLog_addNode s.view newNode)

/-! ## Runs -/

/-- A step keeps the entries, and may add one of the node's own term. -/
theorem storedStep_log {s : StoredNode} (h : LogArrayOk s.log) (a : StoredStep) :
    ∃ s' code, storedMachine.step s a = some (s', code) ∧ LogArrayOk s'.log ∧
      (s'.log.entries = s.log.entries ∨ s'.node.currentTerm = s.node.currentTerm ∧
        ∃ slot, slot.term = s.node.currentTerm ∧ s'.log.entries = s.log.entries ++ [slot]) := by
  obtain ⟨step, outside, fresh⟩ := a
  cases step with
  | appendLog env data =>
    obtain ⟨s', code, hs, hcall⟩ := appendSlot_spec env fresh h data
    refine ⟨s', code, hs, ?_⟩
    cases hcall with
    | invalidParam hdata => exact ⟨h, .inl rfl⟩
    | permission hdata hstate => exact ⟨h, .inl rfl⟩
    | outOfMemory hdata hstate hlog hsize hentries => exact ⟨hlog, .inl hentries⟩
    | ok hdata hstate hlog hentries => exact ⟨hlog, .inr ⟨rfl, _, rfl, hentries⟩⟩
  | election env => exact ⟨_, _, rfl, h, .inl rfl⟩
  | heartbeat env => exact ⟨_, _, rfl, h, .inl rfl⟩
  | addNode newNode => exact ⟨_, _, rfl, h, .inl rfl⟩

/-- A run on the array is a run on the entries. -/
theorem trace_of_stored {s s' : StoredNode} {steps : List StoredStep} {codes : List XdeviceError}
    (events : List RaftEvent) (h : LogArrayOk s.log) (hrun : storedMachine.run s steps = some (s', codes)) :
    ∃ events', traceMachine.run ⟨s.view, events⟩ (steps.map fun a => ⟨a.step, a.outside⟩) =
      some (⟨s'.view, events'⟩, codes) := by
  induction steps generalizing s codes events with
  | nil =>
    cases hrun
    exact ⟨events, rfl⟩
  | cons a steps ih =>
    obtain ⟨s1, code, codes, hstep, hrest, rfl⟩ := Machine.run_cons_eq_some.1 hrun
    obtain ⟨s1', code', hstep', hlog, -⟩ := storedStep_log h a
    rw [hstep] at hstep'
    cases hstep'
    -- the head of the run, then the rest from the view it leaves
    obtain ⟨new, hnew⟩ := storedStep_view h hstep
    obtain ⟨events', hrun'⟩ := ih (events ++ new ++ [s1.view.event .stepEnd]) hlog hrest
    refine ⟨events', Machine.run_cons_eq_some.2 ⟨_, code, codes, ?_, hrun', rfl⟩⟩
    simp only [traceMachine, hnew]

/-- No step lowers the term. -/
theorem NodeTrace.term_le {own : CString} {node : RaftNode} {events : List RaftEvent} (h : NodeTrace own node events)
    (hterm : node.currentTerm < 2 ^ 64 - 1) (outside : Nat → Nat) (a : RaftStep) :
    node.currentTerm ≤ (raftStep outside node a).1.currentTerm :=
  ((h.emit .stepEnd).step hterm outside a).term (node.event .stepEnd)
    (List.mem_append_left _ (List.mem_append_right _ List.mem_cons_self))

/-- The log and the roles together: the term that an entry takes is never below the terms
of the entries before it. -/
theorem StoredNodeOk.step {own : CString} {s : StoredNode} {events : List RaftEvent} (h : StoredNodeOk s)
    (htrace : NodeTrace own s.view events) (hterm : s.node.currentTerm < 2 ^ 64 - 1) (a : StoredStep) :
    ∃ s' code events', storedMachine.step s a = some (s', code) ∧ StoredNodeOk s' ∧ NodeTrace own s'.view events' ∧
      s.log.entries <+: s'.log.entries := by
  obtain ⟨s', code, hs, hlog, hentries⟩ := storedStep_log h.log a
  obtain ⟨new, hnew⟩ := storedStep_view h.log hs
  have hle : s.node.currentTerm ≤ s'.node.currentTerm := by
    have := htrace.term_le hterm a.outside a.step
    rwa [hnew] at this
  have htrace' := htrace.step hterm a.outside a.step
  rw [hnew] at htrace'
  refine ⟨s', code, _, hs, ?_, htrace', ?_⟩
  -- the terms of the entries are below the term of the node, which is the new entry's
  · rcases hentries with he | ⟨hsame, slot, hslot, he⟩
    · refine ⟨hlog, ?_, ?_⟩
      · rw [he]
        exact h.terms
      · rw [he]
        exact fun e hmem => (h.current e hmem).trans hle
    · refine ⟨hlog, ?_, ?_⟩
      · rw [he]
        refine List.pairwise_append.2 ⟨h.terms, List.pairwise_singleton .., fun e hmem e' hmem' => ?_⟩
        rw [List.mem_singleton.1 hmem', hslot]
        exact h.current e hmem
      · rw [he]
        refine List.forall_mem_append.2 ⟨fun e hmem => (h.current e hmem).trans hle, List.forall_mem_singleton.2 ?_⟩
        rw [hslot]
        exact hle
  · rcases hentries with he | ⟨-, slot, -, he⟩
    · rw [he]
    · rw [he]
      exact List.prefix_append ..

/-! ## Main theorem -/

theorem storedNodeOk_created {avail : Bool} {clock : Clock} {nodeId : CString} {node : RaftNode}
    (hcreate : xdeviceRaftCreateNode avail clock nodeId = some node) (fresh : Nat → LogSlot) :
    StoredNodeOk (node.stored fresh) := by
  unfold xdeviceRaftCreateNode at hcreate
  split at hcreate
  · cases hcreate
    refine ⟨⟨Nat.zero_le _, ?_, ?_, ?_, nofun⟩, .nil, nofun⟩
    · simp [RaftNode.stored]
    · simp [RaftNode.stored, resetElectionTimer]
    · simp [RaftNode.stored, resetElectionTimer, sizeofRaftLogEntry, ptrdiffMax]
  · cases hcreate

/-- What a call of `xdevice_raft_append_log` promises. -/
structure AppendPromise (s : StoredNode) (data : Bytes) (s' : StoredNode) (code : XdeviceError) : Prop where
  ok : code = .ok → s'.log.size = s.log.size + 1 ∧
    s'.log.entries = s.log.entries ++ [⟨s.node.currentTerm, s.log.size + 1, data.length, some data⟩]
  permission : data ≠ [] → (code = .permission ↔ s.node.state ≠ .leader)
  error : code ≠ .ok → s'.log.size = s.log.size ∧ s'.log.entries = s.log.entries

theorem Appends.promise {s s' : StoredNode} {data : Bytes} {code : XdeviceError} (hs : LogArrayOk s.log)
    (h : Appends s data s' code) : AppendPromise s data s' code := by
  cases h with
  | invalidParam hdata =>
    exact ⟨nofun, fun hne => absurd (List.eq_nil_of_length_eq_zero hdata) hne, fun _ => ⟨rfl, rfl⟩⟩
  | permission hdata hstate => exact ⟨nofun, fun _ => iff_of_true rfl hstate, fun _ => ⟨rfl, rfl⟩⟩
  | outOfMemory hdata hstate hlog hsize hentries =>
    exact ⟨nofun, fun _ => iff_of_false nofun (not_not_intro hstate), fun _ => ⟨hsize, hentries⟩⟩
  | ok hdata hstate hlog hentries =>
    refine ⟨fun _ => ⟨?_, hentries⟩, fun _ => iff_of_false nofun (not_not_intro hstate), fun hne => absurd rfl hne⟩
    have hlength := congrArg List.length hentries
    rw [hlog.entries_length, List.length_append, hs.entries_length] at hlength
    exact hlength

/-- Every run of a node from its creation in which no term reaches the last one keeps the
log in order, and what comes after it only adds to the entries. -/
theorem log_append_only {avail : Bool} {clock : Clock} {nodeId : CString} {node : RaftNode}
    (hcreate : xdeviceRaftCreateNode avail clock nodeId = some node) (fresh : Nat → LogSlot) {steps : List StoredStep}
    (hterms : storedMachine.Along (fun s _ => s.node.currentTerm < 2 ^ 64 - 1) (node.stored fresh) steps) :
    ∃ s codes, storedMachine.run (node.stored fresh) steps = some (s, codes) ∧ StoredNodeOk s ∧
      (∀ env fresh data, ∃ s' code, appendSlot env fresh s data = some (s', code) ∧ AppendPromise s data s' code) ∧
      ∀ later, storedMachine.Along (fun s _ => s.node.currentTerm < 2 ^ 64 - 1) s later →
        ∃ s' codes', storedMachine.run s later = some (s', codes') ∧ s.log.entries <+: s'.log.entries := by
  have hstep : ∀ (entries : List LogSlot) (s : StoredNode) (a : StoredStep),
      (StoredNodeOk s ∧ (∃ events, NodeTrace node.nodeId s.view events) ∧ entries <+: s.log.entries) →
      s.node.currentTerm < 2 ^ 64 - 1 → ∃ s' code, storedMachine.step s a = some (s', code) ∧
        StoredNodeOk s' ∧ (∃ events, NodeTrace node.nodeId s'.view events) ∧ entries <+: s'.log.entries := by
    rintro entries s a ⟨hok, ⟨events, htrace⟩, hprefix⟩ hterm
    obtain ⟨s', code, events', hs, hok', htrace', hadds⟩ := hok.step htrace hterm a
    exact ⟨s', code, hs, hok', ⟨events', htrace'⟩, hprefix.trans hadds⟩
  -- the entries to begin with are a parameter: none for the first run, all there are for the second
  have hcreated := storedNodeOk_created hcreate fresh
  have htrace : NodeTrace node.nodeId (node.stored fresh).view [node.event .stepEnd] :=
    (nodeTrace_created hcreate).same ⟨rfl, rfl, rfl, rfl⟩
  obtain ⟨s, codes, hrun, hok, hevents, -⟩ :=
    Machine.run_of_along (hstep []) ⟨hcreated, ⟨_, htrace⟩, List.nil_prefix⟩ hterms
  refine ⟨s, codes, hrun, hok, fun env fresh data => ?_, fun later hlater => ?_⟩
  · obtain ⟨s', code, hs, hcall⟩ := appendSlot_spec env fresh hok.log data
    exact ⟨s', code, hs, hcall.promise hok.log⟩
  · obtain ⟨s', codes', hrun', -, -, hprefix⟩ :=
      Machine.run_of_along (hstep s.log.entries) ⟨hok, hevents, List.prefix_refl _⟩ hlater
    exact ⟨s', codes', hrun', hprefix⟩

/-- "A" leads its cluster alone and appends one entry. -/
def loneLeaderSteps : List StoredStep :=
  [⟨.addNode (cstr "A"), id, fun k => ⟨k, k, k, none⟩⟩, ⟨.election (votesEnv false), id, fun k => ⟨k, k, k, none⟩⟩,
    ⟨.appendLog ⟨true, true⟩ (cstr "x"), id, fun k => ⟨k, k, k, none⟩⟩]

theorem lone_leader_appends :
    (storedMachine.run (newNodeA.stored fun k => ⟨k, k, k, none⟩) loneLeaderSteps).map
      (fun r => (r.2, r.1.log.entries)) = some ([.ok, .ok, .ok], [⟨1, 1, 1, some (cstr "x")⟩]) ∧
    ∃ s codes, storedMachine.run (newNodeA.stored fun k => ⟨k, k, k, none⟩) loneLeaderSteps = some (s, codes) ∧
      StoredNodeOk s ∧
      (∀ env fresh data, ∃ s' code, appendSlot env fresh s data = some (s', code) ∧ AppendPromise s data s' code) ∧
      ∀ later, storedMachine.Along (fun s _ => s.node.currentTerm < 2 ^ 64 - 1) s later →
        ∃ s' codes', storedMachine.run s later = some (s', codes') ∧ s.log.entries <+: s'.log.entries :=
  ⟨by decide +kernel, log_append_only newNodeA_created _ (by decide +kernel)⟩

end XDevice
