import XDevice.Raft.Node
import XDevice.Lib.Machine
/-!
# The leader's next indices

A leader keeps one `next_index` for each slot of `cluster_nodes`. Winning an
election sets all of them and every response keeps them within the log; a slot
that is filled while the node leads is the one place where none is set.
-/
open Lib

namespace XDevice

/-- A step of one node: an iteration of either thread, or a call. -/
inductive RaftStep where
  | election (env : ElectionEnv)
  | heartbeat (env : HeartbeatEnv)
  | appendLog (env : AppendEnv) (data : Bytes)
  | addNode (newNode : CString)

/-- The threads return nothing, which stands here as `XDEVICE_OK`. -/
def nodeMachine : Machine RaftNode RaftStep XdeviceError where
  step node
    | .election env => some (electionIteration env node, .ok)
    | .heartbeat env => (heartbeatIteration env node).map fun node => (node, .ok)
    | .appendLog env data => some (xdeviceRaftAppendLog env node data)
    | .addNode newNode => some (xdeviceRaftAddNodeToCluster node newNode)

/-! ## Invariant -/

/-- The arrays and the log within their bounds, and no index set for an empty slot. -/
structure NodeOk (node : RaftNode) : Prop where
  slots : node.clusterSize ≤ xdeviceMaxNodes
  indices : node.nextIndex.length = xdeviceMaxNodes
  log : node.logSize ≤ node.logCapacity
  block : 0 < node.logCapacity
  capacity : sizeofRaftLogEntry * node.logCapacity ≤ ptrdiffMax
  empty : ∀ i, node.clusterSize ≤ i → node.nextIndex.getD i 0 = 0

/-- While the node leads, every peer's next index points into the log or just past it. -/
def IndexWindow (node : RaftNode) : Prop :=
  node.state = .leader → ∀ i id, node.clusterNodes[i]? = some id → id ≠ node.nodeId →
    1 ≤ node.nextIndex.getD i 0 ∧ node.nextIndex.getD i 0 ≤ node.logSize + 1

/-- No slot is filled with another node's id while the node leads. -/
def NoLateAdd (node : RaftNode) : RaftStep → Prop
  | .addNode newNode => node.state = .leader → node.clusterSize < xdeviceMaxNodes → newNode = node.nodeId
  | _ => True

theorem nodeOk_create {avail : Bool} {clock : Clock} {nodeId : CString} {node : RaftNode}
    (h : xdeviceRaftCreateNode avail clock nodeId = some node) : NodeOk node ∧ node.state ≠ .leader := by
  unfold xdeviceRaftCreateNode at h
  split at h
  · cases h
    refine ⟨⟨Nat.zero_le _, rfl, Nat.zero_le _, ?_, ?_, fun i _ => ?_⟩, by simp [resetElectionTimer]⟩
    · simp [resetElectionTimer]
    · simp [resetElectionTimer, sizeofRaftLogEntry, ptrdiffMax]
    simp only [resetElectionTimer, List.getD_eq_getElem?_getD, List.getElem?_replicate]
    split <;> rfl
  · cases h

theorem NodeOk.logSize_lt {node : RaftNode} (h : NodeOk node) : node.logSize + 1 < 2 ^ 64 := by
  have h1 := h.log
  have h2 := h.capacity
  simp only [sizeofRaftLogEntry, ptrdiffMax] at h2
  omega

theorem IndexWindow.of_not_leader {node : RaftNode} (h : node.state ≠ .leader) : IndexWindow node :=
  fun hl => absurd hl h

theorem NodeOk.stepDown {node : RaftNode} (h : NodeOk node) (term : Nat) (clock : Clock) :
    NodeOk (stepDown node term clock) := ⟨h.1, h.2, h.3, h.4, h.5, h.6⟩

theorem NodeOk.startElection {node : RaftNode} (h : NodeOk node) (clock : Clock) : NodeOk (startElection node clock) :=
  ⟨h.1, h.2, h.3, h.4, h.5, h.6⟩

/-! ## Election -/

theorem getD_replicate_append {n i : Nat} (hi : i < n) (v : Nat) (l : List Nat) :
    (List.replicate n v ++ l).getD i 0 = v := by
  rw [List.getD_append _ _ _ _ (by simpa using hi)]
  simp [List.getD_eq_getElem?_getD, hi]

theorem finishElection_ok {node : RaftNode} (h : NodeOk node) (votes : Nat) (hs : node.state ≠ .leader) :
    NodeOk (finishElection node votes) ∧ IndexWindow (finishElection node votes) := by
  unfold finishElection
  split
  · have hlog : add64 node.logSize 1 = node.logSize + 1 := add64_eq h.logSize_lt
    have hslots := h.slots
    have hnext : ∀ i, (List.replicate node.clusterSize (add64 node.logSize 1) ++
        node.nextIndex.drop node.clusterSize).getD i 0 =
          if i < node.clusterSize then node.logSize + 1 else node.nextIndex.getD i 0 := by
      intro i
      by_cases hi : i < node.clusterSize
      · rw [getD_replicate_append hi, if_pos hi, hlog]
      · rw [List.getD_append_right _ _ _ _ (by simpa using hi), if_neg hi, List.length_replicate]
        simp only [List.getD_eq_getElem?_getD, List.getElem?_drop]
        congr 2
        omega
    refine ⟨⟨h.slots, ?_, h.log, h.block, h.capacity, fun i hi => ?_⟩, fun _ i id hid _ => ?_⟩
    · simp [h.indices]
      omega
    · rw [hnext, if_neg (by exact Nat.not_lt.2 hi)]
      exact h.empty i hi
    · have hi : i < node.clusterSize := (List.getElem?_eq_some_iff.1 hid).1
      rw [hnext, if_pos hi]
      exact ⟨by omega, Nat.le_refl _⟩
  · exact ⟨h, .of_not_leader hs⟩

theorem NodeOk.electionIteration {node : RaftNode} (h : NodeOk node) (env : ElectionEnv) :
    NodeOk (electionIteration env node) := by
  have hstart := h.startElection env.startClock
  rcases electionIteration_cases env node with he | ⟨-, he | ⟨term, clock, he⟩⟩
  · rw [he]
    exact h
  · rw [he]
    exact (finishElection_ok hstart _ (by simp [XDevice.startElection, resetElectionTimer])).1
  · rw [he]
    exact hstart.stepDown term clock

theorem electionIteration_ok {node : RaftNode} (h : NodeOk node) (hw : IndexWindow node) (env : ElectionEnv) :
    NodeOk (electionIteration env node) ∧ IndexWindow (electionIteration env node) := by
  refine ⟨h.electionIteration env, ?_⟩
  rcases electionIteration_cases env node with he | ⟨-, he | ⟨term, clock, he⟩⟩
  · rw [he]
    exact hw
  · rw [he]
    exact (finishElection_ok (h.startElection _) _ (by simp [startElection, resetElectionTimer])).2
  · rw [he]
    exact .of_not_leader (by simp [stepDown, resetElectionTimer])

/-! ## Heartbeat -/

/-- With its index in the window, a peer's request stays inside the log. -/
theorem appendRequest_spec {node : RaftNode} (h : NodeOk node) {i : Nat} (h1 : 1 ≤ node.nextIndex.getD i 0)
    (h2 : node.nextIndex.getD i 0 ≤ node.logSize + 1) :
    ∃ req, appendRequest node i = some req ∧ req.prevLogIndex = node.nextIndex.getD i 0 - 1 := by
  have hlt := h.logSize_lt
  have hsub : sub64 (node.nextIndex.getD i 0) 1 = node.nextIndex.getD i 0 - 1 := sub64_eq h1 (by omega)
  simp only [appendRequest, hsub]
  split
  · have hin : node.nextIndex.getD i 0 - 1 - 1 < node.logEntries.length := by
      unfold RaftNode.logSize at h2
      omega
    rw [List.getElem?_eq_getElem hin]
    exact ⟨_, rfl, rfl⟩
  · exact ⟨_, rfl, rfl⟩

theorem getD_set_nat (l : List Nat) (i j v : Nat) :
    (l.set i v).getD j 0 = if i = j ∧ i < l.length then v else l.getD j 0 := by
  simp only [List.getD_eq_getElem?_getD, List.getElem?_set]
  by_cases h : i = j
  · subst h
    by_cases hi : i < l.length <;> simp [hi]
  · simp [h]

theorem NodeOk.setNext {node : RaftNode} (h : NodeOk node) {i : Nat} (hi : i < node.clusterSize) (v : Nat)
    (matchIndex : List Nat) :
    NodeOk { node with nextIndex := node.nextIndex.set i v, matchIndex := matchIndex } := by
  refine ⟨h.slots, (List.length_set ..).trans h.indices, h.log, h.block, h.capacity, fun j hj => ?_⟩
  have hj' : node.clusterSize ≤ j := hj
  simp only [getD_set_nat]
  rw [if_neg (by omega)]
  exact h.empty j hj

theorem NodeOk.handleAppendResponse {node : RaftNode} (h : NodeOk node) {i : Nat} (hi : i < node.clusterSize)
    (req : AppendRequest) (success : Bool) : NodeOk (handleAppendResponse node i req success) := by
  unfold XDevice.handleAppendResponse
  split
  · exact h.setNext hi _ _
  · split
    · exact h.setNext hi _ _
    · exact h

/-- A response moves one index, within its window. -/
theorem handleAppendResponse_ok {node : RaftNode} (h : NodeOk node) (hw : IndexWindow node)
    (hl : node.state = .leader) {i : Nat} {id : CString} (hid : node.clusterNodes[i]? = some id)
    (hne : id ≠ node.nodeId) {req : AppendRequest} (hreq : req.prevLogIndex = node.nextIndex.getD i 0 - 1)
    (success : Bool) :
    NodeOk (handleAppendResponse node i req success) ∧ IndexWindow (handleAppendResponse node i req success) := by
  obtain ⟨h1, h2⟩ := hw hl i id hid hne
  have hi : i < node.clusterSize := (List.getElem?_eq_some_iff.1 hid).1
  have hlt := h.logSize_lt
  refine ⟨h.handleAppendResponse hi req success, ?_⟩
  -- setting slot `i` to a value in the window keeps everything
  have hset : ∀ v, 1 ≤ v → v ≤ node.logSize + 1 → ∀ m,
      IndexWindow { node with nextIndex := node.nextIndex.set i v, matchIndex := m } := by
    intro v hv1 hv2 m _ j jd hjd hjne
    simp only [getD_set_nat]
    split
    · exact ⟨hv1, hv2⟩
    · exact hw hl j jd hjd hjne
  unfold handleAppendResponse
  split
  · rw [hreq, add64_eq (by omega)]
    exact hset _ (by omega) (by omega) _
  · split
    · exact hset _ (by omega) (by omega) _
    · exact hw

theorem handleAppendResponse_frame (node : RaftNode) (i : Nat) (req : AppendRequest) (success : Bool) :
    (handleAppendResponse node i req success).state = node.state ∧
      (handleAppendResponse node i req success).nodeId = node.nodeId ∧
      (handleAppendResponse node i req success).clusterNodes = node.clusterNodes := by
  obtain ⟨nextIndex, matchIndex, he⟩ := handleAppendResponse_changes node i req success
  rw [he]
  exact ⟨rfl, rfl, rfl⟩

/-- The heartbeat loop keeps the window, and so never reads outside the log. -/
theorem heartbeatFrom_ok (env : HeartbeatEnv) {node : RaftNode} {i : Nat} {ids : List CString} (h : NodeOk node)
    (hw : IndexWindow node) (hl : node.state = .leader) (hids : node.clusterNodes.drop i = ids) :
    ∃ node', heartbeatFrom env node i ids = some node' ∧ NodeOk node' ∧ IndexWindow node' := by
  induction ids generalizing node i with
  | nil => exact ⟨node, rfl, h, hw⟩
  | cons id ids ih =>
    obtain ⟨hid, hnext⟩ := slot_of_drop hids
    unfold heartbeatFrom
    split
    · exact ih h hw hl hnext
    · rename_i hne
      obtain ⟨h1, h2⟩ := hw hl i id hid hne
      obtain ⟨req, hreq, hprev⟩ := appendRequest_spec h h1 h2
      rw [hreq, Option.bind_some]
      split
      · exact ih h hw hl hnext
      · split
        · exact ⟨_, rfl, h.stepDown _ _, .of_not_leader (by simp [stepDown, resetElectionTimer])⟩
        · rename_i resp _ _
          obtain ⟨hok, hwin⟩ := handleAppendResponse_ok h hw hl hid hne hprev resp.success
          obtain ⟨hs, -, hc⟩ := handleAppendResponse_frame node i req resp.success
          exact ih hok hwin (hs.trans hl) (hc ▸ hnext)

theorem heartbeatIteration_ok {node : RaftNode} (h : NodeOk node) (hw : IndexWindow node) (env : HeartbeatEnv) :
    ∃ node', heartbeatIteration env node = some node' ∧ NodeOk node' ∧ IndexWindow node' := by
  unfold heartbeatIteration
  split
  · rename_i hdue
    obtain ⟨node', hn, hok, hwin⟩ := heartbeatFrom_ok env h hw hdue.1 List.drop_zero
    refine ⟨{ node' with lastHeartbeat := env.now }, ?_, ⟨hok.1, hok.2, hok.3, hok.4, hok.5, hok.6⟩, hwin⟩
    rw [hn]
    rfl
  · exact ⟨node, rfl, h, hw⟩

/-! ## Callers -/

/-- Nothing wraps when the capacity doubles, so `realloc` is asked for the size that is meant. -/
theorem doubled_capacity {capacity : Nat} (h : sizeofRaftLogEntry * capacity ≤ ptrdiffMax) :
    mul64 capacity 2 = capacity * 2 ∧
      mul64 sizeofRaftLogEntry (capacity * 2) = sizeofRaftLogEntry * (capacity * 2) := by
  simp only [sizeofRaftLogEntry, ptrdiffMax] at h ⊢
  exact ⟨mul64_eq (by omega), mul64_eq (by omega)⟩

theorem growLog_spec {env : AppendEnv} {node node' : RaftNode} (h : NodeOk node)
    (hg : growLog env node = some node') :
    ∃ cap, node' = { node with logCapacity := cap } ∧ node.logSize < cap ∧
      sizeofRaftLogEntry * cap ≤ ptrdiffMax := by
  have hcap := h.capacity
  simp only [growLog] at hg
  split at hg
  · rename_i hfull
    split at hg
    · rename_i halloc
      cases hg
      have hlog := h.log
      have hpos := h.block
      obtain ⟨hnew, hbytes⟩ := doubled_capacity hcap
      rw [hnew, hbytes] at halloc
      rw [hnew]
      exact ⟨node.logCapacity * 2, rfl, by omega, halloc.2⟩
    · cases hg
  · cases hg
    exact ⟨node.logCapacity, rfl, by omega, hcap⟩

theorem NodeOk.appendLog {node : RaftNode} (h : NodeOk node) (env : AppendEnv) (data : Bytes) :
    NodeOk (xdeviceRaftAppendLog env node data).1 := by
  unfold xdeviceRaftAppendLog
  split
  · exact h
  · split
    · exact h
    · split
      · exact h
      · rename_i node' hg
        obtain ⟨cap, rfl, hlt, hcap⟩ := growLog_spec h hg
        split
        · refine ⟨h.slots, h.indices, ?_, Nat.zero_lt_of_lt hlt, hcap, h.empty⟩
          simp only [RaftNode.logSize, List.length_append, List.length_singleton] at hlt ⊢
          omega
        · exact ⟨h.slots, h.indices, Nat.le_of_lt hlt, Nat.zero_lt_of_lt hlt, hcap, h.empty⟩

/-- Entries are only ever added at the end. -/
theorem appendLog_log (env : AppendEnv) (node : RaftNode) (data : Bytes) :
    node.logEntries <+: (xdeviceRaftAppendLog env node data).1.logEntries := by
  unfold xdeviceRaftAppendLog
  split
  · exact List.prefix_rfl
  · split
    · exact List.prefix_rfl
    · split
      · exact List.prefix_rfl
      · rename_i node' hg
        obtain ⟨cap, rfl⟩ := growLog_changes hg
        split
        · exact List.prefix_append _ _
        · exact List.prefix_rfl

theorem appendLog_ok {node : RaftNode} (h : NodeOk node) (hw : IndexWindow node) (env : AppendEnv) (data : Bytes) :
    NodeOk (xdeviceRaftAppendLog env node data).1 ∧ IndexWindow (xdeviceRaftAppendLog env node data).1 := by
  refine ⟨h.appendLog env data, fun hl i id hid hne => ?_⟩
  have hlen : node.logSize ≤ (xdeviceRaftAppendLog env node data).1.logSize := (appendLog_log env node data).length_le
  obtain ⟨logEntries, logCapacity, he⟩ := appendLog_changes env node data
  rw [he] at hl hid hne hlen ⊢
  obtain ⟨h1, h2⟩ := hw hl i id hid hne
  exact ⟨h1, Nat.le_trans h2 (Nat.add_le_add_right hlen 1)⟩

theorem addNode_ok {node : RaftNode} (h : NodeOk node) (newNode : CString) :
    NodeOk (xdeviceRaftAddNodeToCluster node newNode).1 := by
  unfold xdeviceRaftAddNodeToCluster
  split
  · exact h
  · rename_i hroom
    refine ⟨?_, h.indices, h.log, h.block, h.capacity, fun i hi => h.empty i ?_⟩
    · simp only [RaftNode.clusterSize, List.length_append, List.length_singleton] at hroom ⊢
      omega
    · simp only [RaftNode.clusterSize, List.length_append, List.length_singleton] at hi ⊢
      omega

theorem addNode_window_iff {node : RaftNode} (h : NodeOk node) (hw : IndexWindow node) (newNode : CString) :
    IndexWindow (xdeviceRaftAddNodeToCluster node newNode).1 ↔ NoLateAdd node (.addNode newNode) := by
  unfold xdeviceRaftAddNodeToCluster
  split
  · exact ⟨fun _ _ hlt => absurd hlt (by omega), fun _ => hw⟩
  · rename_i hroom
    constructor
    · intro hwin hl _
      by_contra hne
      -- the new slot has no index yet
      obtain ⟨h1, -⟩ := hwin hl node.clusterSize newNode (by simp [RaftNode.clusterSize]) hne
      have := h.empty node.clusterSize (Nat.le_refl _)
      dsimp only at h1
      omega
    · intro hadd hl i id hid hne
      dsimp only at hid
      rw [List.getElem?_append] at hid
      split at hid
      · exact hw hl i id hid hne
      · have := List.mem_singleton.1 (List.mem_of_getElem? hid)
        exact absurd (this.trans (hadd hl (by omega))) hne

/-! ## Runs out of the window -/

/-- The loop keeps the arrays also where an index is out of its window, if it gets through. -/
theorem NodeOk.heartbeatFrom {env : HeartbeatEnv} {node node' : RaftNode} {i : Nat} {ids : List CString} (h : NodeOk node)
    (hids : node.clusterNodes.drop i = ids) (hn : heartbeatFrom env node i ids = some node') : NodeOk node' := by
  induction ids generalizing node i with
  | nil =>
    cases hn
    exact h
  | cons id ids ih =>
    obtain ⟨hid, hnext⟩ := slot_of_drop hids
    have hi : i < node.clusterSize := (List.getElem?_eq_some_iff.1 hid).1
    unfold XDevice.heartbeatFrom at hn
    split at hn
    · exact ih h hnext hn
    · obtain ⟨req, -, hn⟩ := Option.bind_eq_some_iff.1 hn
      split at hn
      · exact ih h hnext hn
      · rename_i resp _
        split at hn
        · cases hn
          exact h.stepDown _ _
        · obtain ⟨-, -, hc⟩ := handleAppendResponse_frame node i req resp.success
          exact ih (h.handleAppendResponse hi req resp.success) (hc ▸ hnext) hn

theorem nodeMachine_keeps : nodeMachine.Keeps NodeOk := by
  intro node a node' code h hs
  cases a with
  | election env =>
    cases hs
    exact h.electionIteration env
  | heartbeat env =>
    obtain ⟨node'', hn, he⟩ := Option.map_eq_some_iff.1 hs
    cases he
    unfold heartbeatIteration at hn
    split at hn
    · obtain ⟨last, hlast, rfl⟩ := Option.map_eq_some_iff.1 hn
      have hok := h.heartbeatFrom List.drop_zero hlast
      exact ⟨hok.1, hok.2, hok.3, hok.4, hok.5, hok.6⟩
    · cases hn
      exact h
  | appendLog env data =>
    obtain rfl : (xdeviceRaftAppendLog env node data).1 = node' := congrArg Prod.fst (Option.some.inj hs)
    exact h.appendLog env data
  | addNode newNode =>
    obtain rfl : (xdeviceRaftAddNodeToCluster node newNode).1 = node' := congrArg Prod.fst (Option.some.inj hs)
    exact addNode_ok h newNode

/-! ## Main theorem -/

/-- Every step but a late add keeps the window, and none gets stuck in it. -/
theorem nodeMachine_ok {node : RaftNode} (h : NodeOk node) (hw : IndexWindow node) {a : RaftStep}
    (ha : NoLateAdd node a) :
    ∃ node' ret, nodeMachine.step node a = some (node', ret) ∧ NodeOk node' ∧ IndexWindow node' := by
  cases a with
  | election env =>
    obtain ⟨hok, hwin⟩ := electionIteration_ok h hw env
    exact ⟨_, _, rfl, hok, hwin⟩
  | heartbeat env =>
    obtain ⟨node', hn, hok, hwin⟩ := heartbeatIteration_ok h hw env
    exact ⟨node', .ok, by simp [nodeMachine, hn], hok, hwin⟩
  | appendLog env data =>
    obtain ⟨hok, hwin⟩ := appendLog_ok h hw env data
    exact ⟨_, _, rfl, hok, hwin⟩
  | addNode newNode => exact ⟨_, _, rfl, addNode_ok h newNode, (addNode_window_iff h hw newNode).2 ha⟩

/-- In a run of a node from its creation the leader's indices stay in the window,
and no heartbeat reads outside the log, just when no other node's id is added
while the node leads. -/
theorem index_window_iff {avail : Bool} {clock : Clock} {nodeId : CString} {node : RaftNode}
    (hcreate : xdeviceRaftCreateNode avail clock nodeId = some node) (steps : List RaftStep) :
    (nodeMachine.Always IndexWindow node steps ∧ nodeMachine.run node steps ≠ none) ↔
      nodeMachine.Along NoLateAdd node steps := by
  obtain ⟨hok, hl⟩ := nodeOk_create hcreate
  have hwin := IndexWindow.of_not_leader hl
  have hiff : nodeMachine.Always IndexWindow node steps ↔ nodeMachine.Along NoLateAdd node steps := by
    refine Machine.always_iff_along (A := fun _ => True) (fun s a s' b h hw _ ha hs => ?_) (fun s a h hw _ ha => ?_) hok hwin
      fun _ _ => trivial
    · obtain ⟨node', ret, hstep, hok', hwin'⟩ := nodeMachine_ok h hw ha
      rw [hs] at hstep
      cases hstep
      exact ⟨hok', hwin'⟩
    · cases a with
      | addNode newNode => exact ⟨_, _, rfl, fun hn => ha ((addNode_window_iff h hw newNode).1 hn)⟩
      | election | heartbeat | appendLog => exact absurd trivial ha
  refine ⟨fun h => hiff.1 h.1, fun h => ⟨hiff.2 h, ?_⟩⟩
  obtain ⟨s', bs, hr, -⟩ := Machine.run_of_along (M := nodeMachine)
    (fun s a (hI : NodeOk s ∧ IndexWindow s) ha => nodeMachine_ok hI.1 hI.2 ha) ⟨hok, hwin⟩ h
  simp [hr]

/-! ## A late add -/

/-- A node "A" that has just been created, its election timer already over. -/
def newNodeA : RaftNode where
  nodeId := cstr "A"
  state := .follower
  currentTerm := 0
  votedFor := []
  commitIndex := 0
  logEntries := []
  logCapacity := 1024
  nextIndex := List.replicate xdeviceMaxNodes 0
  matchIndex := List.replicate xdeviceMaxNodes 0
  clusterNodes := []
  electionTimeout := 150
  lastHeartbeat := 0

/-- Every request is granted, or none comes back. -/
def votesEnv (granted : Bool) : ElectionEnv where
  now := 1000
  startClock := ⟨1000, 0⟩
  sendVoteRequest _ req := if granted then some ⟨req.term, true⟩ else none
  stepClock _ := ⟨1000, 0⟩

/-- A peer that takes every heartbeat. -/
def acceptingEnv : HeartbeatEnv where
  now := 2000
  sendAppendEntries _ req := some ⟨req.term, true⟩
  stepClock _ := ⟨2000, 0⟩

theorem newNodeA_created : xdeviceRaftCreateNode true ⟨0, 0⟩ (cstr "A") = some newNodeA := rfl

/-- The peers are known before the election. -/
theorem early_add_keeps_window :
    nodeMachine.Always IndexWindow newNodeA
      [.addNode (cstr "A"), .addNode (cstr "B"), .election (votesEnv true), .heartbeat acceptingEnv] ∧
    nodeMachine.run newNodeA
      [.addNode (cstr "A"), .addNode (cstr "B"), .election (votesEnv true), .heartbeat acceptingEnv] ≠ none := by
  refine (index_window_iff newNodeA_created _).2 ⟨nofun, fun _ _ hs => ?_⟩
  cases hs
  refine ⟨nofun, fun _ _ hs => ?_⟩
  cases hs
  exact ⟨trivial, fun _ _ _ => ⟨trivial, fun _ _ _ => trivial⟩⟩

/-- A node alone in its cluster leads, then hears of "B": the index of "B" is
zero, and the next heartbeat reads outside the log. -/
theorem late_add_breaks_window :
    ((nodeMachine.run newNodeA [.election (votesEnv false), .addNode (cstr "B")]).map fun r =>
      (r.1.state, r.1.clusterNodes[0]?, r.1.nextIndex.getD 0 0, r.2)) =
        some (.leader, some (cstr "B"), 0, [.ok, .ok]) ∧
    ¬ nodeMachine.Always IndexWindow newNodeA [.election (votesEnv false), .addNode (cstr "B")] ∧
    nodeMachine.run newNodeA [.election (votesEnv false), .addNode (cstr "B"), .heartbeat acceptingEnv] = none := by
  refine ⟨by decide, fun h => ?_, rfl⟩
  have hwin : IndexWindow _ := (h.2 _ _ rfl).2 _ _ rfl
  exact absurd (hwin rfl 0 (cstr "B") rfl (by decide)).1 (by decide)

end XDevice
