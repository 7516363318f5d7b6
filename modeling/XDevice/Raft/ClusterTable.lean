import XDevice.Raft.Trace
/-!
# The cluster table

A call that adds a member looks at the size of the table before it takes the mutex, and
fills the slot behind the last one once it has it. Calls that pass the check one after the
other all saw the same free slots.
-/
open Lib

namespace XDevice

/-! ## Slots that the threads use -/

/-- The slots that `pollFrom` looks at. -/
def pollSlots (env : ElectionEnv) (node : RaftNode) (votesReceived i : Nat) : List CString → List Nat
  | [] => []
  | id :: ids =>
    i :: if id = node.nodeId then pollSlots env node votesReceived (i + 1) ids
    else
      match env.sendVoteRequest i (voteRequest node) with
      | none => pollSlots env node votesReceived (i + 1) ids
      | some resp =>
        match handleVoteResponse node (env.stepClock i) votesReceived resp with
        | (_, _, false) => []
        | (node, votesReceived, true) => pollSlots env node votesReceived (i + 1) ids

/-- The indices that `finishElection` sets. -/
def finishSlots (node : RaftNode) (votesReceived : Nat) : List Nat :=
  if node.state = .candidate ∧ node.clusterSize / 2 < votesReceived then List.range node.clusterSize else []

def electionSlots (env : ElectionEnv) (node : RaftNode) : List Nat :=
  if electionDue node env.now then
    let candidate := startElection node env.startClock
    let polled := pollFrom env candidate 1 0 node.clusterNodes
    pollSlots env candidate 1 0 node.clusterNodes ++ finishSlots polled.1 polled.2
  else []

/-- The slots that `heartbeatTraceFrom` looks at. -/
def heartbeatSlotsFrom (outside : Nat → Nat) (env : HeartbeatEnv) (node : RaftNode) (i : Nat) : List CString → List Nat
  | [] => []
  | id :: ids =>
    i :: if id = node.nodeId then heartbeatSlotsFrom outside env node (i + 1) ids
    else
      let req := appendRequestAt (outside i) node i
      match env.sendAppendEntries i req with
      | none => heartbeatSlotsFrom outside env node (i + 1) ids
      | some resp =>
        if node.currentTerm < resp.term then []
        else heartbeatSlotsFrom outside env (handleAppendResponse node i req resp.success) (i + 1) ids

def heartbeatSlots (outside : Nat → Nat) (env : HeartbeatEnv) (node : RaftNode) : List Nat :=
  if node.state = .leader ∧ raftHeartbeatIntervalMs ≤ sub64 env.now node.lastHeartbeat then
    heartbeatSlotsFrom outside env node 0 node.clusterNodes
  else []

/-! ## Calls that overlap -/

/-- A node, and the members that calls behind their check are about to add. -/
structure ClusterState where
  node : RaftNode
  waiting : List CString

inductive ClusterAct where
  /-- A call is made and looks at the size. -/
  | check (newNode : CString)
  /-- The `k`-th of the calls that wait gets the mutex. -/
  | insert (k : Nat)
  | election (env : ElectionEnv)
  | heartbeat (env : HeartbeatEnv) (outside : Nat → Nat)
  | appendLog (env : AppendEnv) (data : Bytes)

/-- `xdevice_raft_add_node_to_cluster` up to the mutex; a call that goes on has not returned yet. -/
def addNodeCheck (s : ClusterState) (newNode : CString) : ClusterState × XdeviceError :=
  if xdeviceMaxNodes ≤ s.node.clusterSize then (s, .invalidParam)
  else ({ s with waiting := s.waiting ++ [newNode] }, .ok)

/-- `xdevice_raft_add_node_to_cluster` from the mutex on; a slot behind the array is undefined. -/
def addNodeInsert (node : RaftNode) (newNode : CString) : Option RaftNode :=
  if node.clusterSize < xdeviceMaxNodes then some { node with clusterNodes := node.clusterNodes ++ [newNode] } else none

/-- A place where no call waits stands for nothing to be done. -/
def tableMachine : Machine ClusterState ClusterAct XdeviceError where
  step s
    | .check newNode => some (addNodeCheck s newNode)
    | .insert k =>
      match s.waiting[k]? with
      | none => some (s, .ok)
      | some newNode => (addNodeInsert s.node newNode).map fun node => (⟨node, s.waiting.eraseIdx k⟩, .ok)
    | .election env => some ({ s with node := electionIteration env s.node }, .ok)
    | .heartbeat env outside => some ({ s with node := (heartbeatTrace outside env s.node).1 }, .ok)
    | .appendLog env data =>
      let r := xdeviceRaftAppendLog env s.node data
      some ({ s with node := r.1 }, r.2)

/-- The indices that a step uses on `cluster_nodes`, `next_index` and `match_index`. -/
def slotsUsed (s : ClusterState) : ClusterAct → List Nat
  | .check _ => []
  | .insert k => if k < s.waiting.length then [s.node.clusterSize] else []
  | .election env => electionSlots env s.node
  | .heartbeat env outside => heartbeatSlots outside env s.node
  | .appendLog _ _ => []

/-- The size stays within the arrays, and so does every index that is used. -/
structure TableBounded (s : ClusterState) (acts : List ClusterAct) : Prop where
  size : tableMachine.Always (fun s => s.node.clusterSize ≤ xdeviceMaxNodes) s acts
  slots : tableMachine.Along (fun s a => ∀ i ∈ slotsUsed s a, i < xdeviceMaxNodes) s acts

/-- Slots that are taken or are going to be. -/
def ClusterState.claimed (s : ClusterState) : Nat := s.node.clusterSize + s.waiting.length

/-- A call is made and its check passes. -/
def Passes (s : ClusterState) : ClusterAct → Prop
  | .check _ => s.node.clusterSize < xdeviceMaxNodes
  | _ => False

instance (s : ClusterState) : ∀ a, Decidable (Passes s a)
  | .check _ => inferInstanceAs (Decidable (_ < _))
  | .insert _ | .election _ | .heartbeat .. | .appendLog .. => .isFalse id

/-- A check that passes finds a slot that no waiting call is going to take. -/
def RoomForAll (s : ClusterState) (a : ClusterAct) : Prop := Passes s a → s.claimed < xdeviceMaxNodes

instance (s : ClusterState) (a : ClusterAct) : Decidable (RoomForAll s a) := inferInstanceAs (Decidable (_ → _))

/-- A call that no other meets is the one of the sequential model. -/
theorem addNode_alone (node : RaftNode) (newNode : CString) :
    tableMachine.run ⟨node, []⟩ [.check newNode, .insert 0] =
      some (⟨(xdeviceRaftAddNodeToCluster node newNode).1, []⟩, [(xdeviceRaftAddNodeToCluster node newNode).2, .ok]) := by
  by_cases hfull : xdeviceMaxNodes ≤ node.clusterSize
  · simp only [Machine.run, tableMachine, addNodeCheck, xdeviceRaftAddNodeToCluster, if_pos hfull]
    rfl
  · simp only [Machine.run, tableMachine, addNodeCheck, xdeviceRaftAddNodeToCluster, if_neg hfull, List.nil_append,
      List.getElem?_cons_zero, addNodeInsert, if_pos (Nat.not_le.1 hfull)]
    rfl

/-! ## Loops stay below the size -/

theorem pollSlots_lt (env : ElectionEnv) (node : RaftNode) (votes i : Nat) (ids : List CString) :
    ∀ j ∈ pollSlots env node votes i ids, j < i + ids.length := by
  induction ids generalizing node votes i with
  | nil =>
    intro j hj
    cases hj
  | cons id ids ih =>
    have hlater : ∀ node votes, ∀ j ∈ pollSlots env node votes (i + 1) ids, j < i + (ids.length + 1) := by
      intro node votes j hj
      have := ih node votes (i + 1) j hj
      omega
    intro j hj
    rw [List.length_cons]
    rcases List.mem_cons.1 hj with rfl | hj
    · omega
    · split at hj
      · exact hlater _ _ j hj
      · split at hj
        · exact hlater _ _ j hj
        · split at hj
          · cases hj
          · exact hlater _ _ j hj

theorem heartbeatSlotsFrom_lt (outside : Nat → Nat) (env : HeartbeatEnv) (node : RaftNode) (i : Nat) (ids : List CString) :
    ∀ j ∈ heartbeatSlotsFrom outside env node i ids, j < i + ids.length := by
  induction ids generalizing node i with
  | nil =>
    intro j hj
    cases hj
  | cons id ids ih =>
    have hlater : ∀ node, ∀ j ∈ heartbeatSlotsFrom outside env node (i + 1) ids, j < i + (ids.length + 1) := by
      intro node j hj
      have := ih node (i + 1) j hj
      omega
    intro j hj
    rw [List.length_cons]
    rcases List.mem_cons.1 hj with rfl | hj
    · omega
    · split at hj
      · exact hlater _ j hj
      · dsimp only at hj
        split at hj
        · exact hlater _ j hj
        · split at hj
          · cases hj
          · exact hlater _ j hj

/-! ## Threads leave the table alone -/

section
variable {node : RaftNode}

theorem pollFrom_clusterNodes (env : ElectionEnv) (node : RaftNode) (votes i : Nat) (ids : List CString) :
    (pollFrom env node votes i ids).1.clusterNodes = node.clusterNodes := by
  rcases pollFrom_cases env node votes i ids with he | ⟨j, resp, -, -, he⟩
  · rw [he]
  · rw [he]
    rfl

theorem finishElection_clusterNodes (node : RaftNode) (votes : Nat) :
    (finishElection node votes).clusterNodes = node.clusterNodes := by
  unfold finishElection
  split <;> rfl

theorem electionIteration_clusterNodes (env : ElectionEnv) (node : RaftNode) :
    (electionIteration env node).clusterNodes = node.clusterNodes := by
  unfold electionIteration
  split
  · dsimp only
    rw [finishElection_clusterNodes, pollFrom_clusterNodes]
    rfl
  · rfl

theorem heartbeatTraceFrom_clusterNodes (outside : Nat → Nat) (env : HeartbeatEnv) (node : RaftNode) (i : Nat)
    (ids : List CString) : (heartbeatTraceFrom outside env node i ids).1.clusterNodes = node.clusterNodes := by
  induction ids generalizing node i with
  | nil => rfl
  | cons id ids ih =>
    unfold heartbeatTraceFrom
    split
    · exact ih ..
    · dsimp only
      cases env.sendAppendEntries i (appendRequestAt (outside i) node i) with
      | none => exact ih ..
      | some resp =>
        dsimp only
        split
        · rfl
        · obtain ⟨nextIndex, matchIndex, he⟩ :=
            handleAppendResponse_changes node i (appendRequestAt (outside i) node i) resp.success
          rw [ih, he]

theorem heartbeatTrace_clusterNodes (outside : Nat → Nat) (env : HeartbeatEnv) (node : RaftNode) :
    (heartbeatTrace outside env node).1.clusterNodes = node.clusterNodes := by
  unfold heartbeatTrace
  split
  · exact heartbeatTraceFrom_clusterNodes outside env node 0 node.clusterNodes
  · rfl

theorem electionSlots_lt (env : ElectionEnv) (node : RaftNode) : ∀ j ∈ electionSlots env node, j < node.clusterSize := by
  intro j hj
  unfold electionSlots at hj
  split at hj
  · dsimp only at hj
    rcases List.mem_append.1 hj with hj | hj
    · have hlt := pollSlots_lt env (startElection node env.startClock) 1 0 node.clusterNodes j hj
      rwa [Nat.zero_add] at hlt
    · unfold finishSlots at hj
      split at hj
      · have hlt := List.mem_range.1 hj
        rwa [RaftNode.clusterSize, pollFrom_clusterNodes] at hlt
      · cases hj
  · cases hj

theorem heartbeatSlots_lt (outside : Nat → Nat) (env : HeartbeatEnv) (node : RaftNode) :
    ∀ j ∈ heartbeatSlots outside env node, j < node.clusterSize := by
  intro j hj
  unfold heartbeatSlots at hj
  split at hj
  · have hlt := heartbeatSlotsFrom_lt outside env node 0 node.clusterNodes j hj
    rwa [Nat.zero_add] at hlt
  · cases hj

end

/-! ## Runs -/

/-- A check that passes claims a slot, and an insertion takes one that was claimed. -/
theorem step_claims {s s' : ClusterState} {a : ClusterAct} {code : XdeviceError}
    (h : tableMachine.step s a = some (s', code)) :
    (Passes s a ∧ s'.claimed = s.claimed + 1) ∨ (¬ Passes s a ∧ s'.claimed = s.claimed) := by
  have hsame : ∀ node : RaftNode, node.clusterNodes = s.node.clusterNodes →
      (ClusterState.mk node s.waiting).claimed = s.claimed := by
    intro node hnodes
    simp only [ClusterState.claimed, RaftNode.clusterSize, hnodes]
  cases a with
  | check newNode =>
    simp only [tableMachine, addNodeCheck, Option.some.injEq] at h
    split at h
    · rename_i hfull
      cases h
      exact .inr ⟨Nat.not_lt.2 hfull, rfl⟩
    · rename_i hroom
      cases h
      refine .inl ⟨Nat.not_le.1 hroom, ?_⟩
      simp only [ClusterState.claimed, List.length_append, List.length_singleton, Nat.add_assoc]
  | insert k =>
    refine .inr ⟨id, ?_⟩
    simp only [tableMachine] at h
    split at h
    · cases h
      rfl
    · rename_i newNode hk
      obtain ⟨node, hnode, he⟩ := Option.map_eq_some_iff.1 h
      cases he
      unfold addNodeInsert at hnode
      split at hnode
      · cases hnode
        have hlt : k < s.waiting.length := (List.getElem?_eq_some_iff.1 hk).1
        simp only [ClusterState.claimed, RaftNode.clusterSize, List.length_append, List.length_singleton,
          List.length_eraseIdx, if_pos hlt]
        omega
      · cases hnode
  | election env =>
    cases h
    exact .inr ⟨id, hsame _ (electionIteration_clusterNodes env s.node)⟩
  | heartbeat env outside =>
    cases h
    exact .inr ⟨id, hsame _ (heartbeatTrace_clusterNodes outside env s.node)⟩
  | appendLog env data =>
    cases h
    obtain ⟨logEntries, logCapacity, he⟩ := appendLog_changes env s.node data
    exact .inr ⟨id, hsame _ (by rw [he])⟩

/-- While no more is claimed than there is, a step uses slots of the arrays. -/
theorem slotsUsed_lt {s : ClusterState} (h : s.claimed ≤ xdeviceMaxNodes) (a : ClusterAct) :
    ∀ i ∈ slotsUsed s a, i < xdeviceMaxNodes := by
  have hsize : s.node.clusterSize ≤ xdeviceMaxNodes := Nat.le_trans (Nat.le_add_right ..) h
  intro i hi
  cases a with
  | check newNode => cases hi
  | insert k =>
    simp only [slotsUsed] at hi
    split at hi
    · -- the call that inserts has claimed its slot
      obtain rfl := List.mem_singleton.1 hi
      unfold ClusterState.claimed at h
      omega
    · cases hi
  | election env => exact Nat.lt_of_lt_of_le (electionSlots_lt env s.node i hi) hsize
  | heartbeat env outside => exact Nat.lt_of_lt_of_le (heartbeatSlots_lt outside env s.node i hi) hsize
  | appendLog env data => cases hi

theorem claimed_le {s s' : ClusterState} {a : ClusterAct} {code : XdeviceError} (h : s.claimed ≤ xdeviceMaxNodes)
    (hroom : RoomForAll s a) (hs : tableMachine.step s a = some (s', code)) : s'.claimed ≤ xdeviceMaxNodes := by
  rcases step_claims hs with ⟨hpasses, hclaimed⟩ | ⟨-, hclaimed⟩
  · have hlt := hroom hpasses
    omega
  · rw [hclaimed]
    exact h

/-- A step that uses slots of the arrays is not stuck. -/
theorem step_of_slots {s : ClusterState} {a : ClusterAct} (h : ∀ i ∈ slotsUsed s a, i < xdeviceMaxNodes) :
    ∃ s' code, tableMachine.step s a = some (s', code) := by
  cases a with
  | insert k =>
    simp only [tableMachine]
    cases hk : s.waiting[k]? with
    | none => exact ⟨s, .ok, rfl⟩
    | some newNode =>
      have hlt : k < s.waiting.length := (List.getElem?_eq_some_iff.1 hk).1
      have hslot : s.node.clusterSize < xdeviceMaxNodes := by
        apply h
        rw [slotsUsed, if_pos hlt]
        exact List.mem_singleton_self _
      have hinsert : addNodeInsert s.node newNode =
          some { s.node with clusterNodes := s.node.clusterNodes ++ [newNode] } := if_pos hslot
      dsimp only
      rw [hinsert]
      exact ⟨_, .ok, rfl⟩
  | check newNode => exact ⟨_, _, rfl⟩
  | election env => exact ⟨_, _, rfl⟩
  | heartbeat env outside => exact ⟨_, _, rfl⟩
  | appendLog env data => exact ⟨_, _, rfl⟩

/-- With room for all that pass the check, the arrays are never left. -/
theorem tableBounded_of_room {s : ClusterState} {acts : List ClusterAct} (h : s.claimed ≤ xdeviceMaxNodes)
    (hroom : tableMachine.Along RoomForAll s acts) : TableBounded s acts := by
  induction acts generalizing s with
  | nil => exact ⟨Nat.le_trans (Nat.le_add_right ..) h, trivial⟩
  | cons a acts ih =>
    have hrest : ∀ s' code, tableMachine.step s a = some (s', code) → TableBounded s' acts := by
      intro s' code hs
      exact ih (claimed_le h hroom.1 hs) (hroom.2 s' code hs)
    exact ⟨⟨Nat.le_trans (Nat.le_add_right ..) h, fun s' code hs => (hrest s' code hs).size⟩,
      slotsUsed_lt h a, fun s' code hs => (hrest s' code hs).slots⟩

/-- What was claimed stays claimed: every check that passes finds less than the end of the run. -/
theorem passes_claimed_lt {s s' : ClusterState} {acts : List ClusterAct} {codes : List XdeviceError}
    (hrun : tableMachine.run s acts = some (s', codes)) :
    s.claimed ≤ s'.claimed ∧ tableMachine.Along (fun t a => Passes t a → t.claimed < s'.claimed) s acts := by
  induction acts generalizing s codes with
  | nil =>
    cases hrun
    exact ⟨Nat.le_refl _, trivial⟩
  | cons a acts ih =>
    obtain ⟨t, code, codes', hs, hrest, -⟩ := Machine.run_cons_eq_some.1 hrun
    obtain ⟨hle, hlater⟩ := ih hrest
    rw [Machine.along_cons hs]
    rcases step_claims hs with ⟨-, hclaimed⟩ | ⟨hpasses, hclaimed⟩
    · exact ⟨by omega, fun _ => by omega, hlater⟩
    · exact ⟨by omega, fun hp => absurd hp hpasses, hlater⟩

/-- If no call is left waiting, arrays that are never left had room for all. -/
theorem room_of_tableBounded {s : ClusterState} {acts : List ClusterAct} (h : TableBounded s acts)
    (hdone : ∀ s' codes, tableMachine.run s acts = some (s', codes) → s'.waiting = []) :
    tableMachine.Along RoomForAll s acts := by
  have hgo : ∀ s a, True → (∀ i ∈ slotsUsed s a, i < xdeviceMaxNodes) →
      ∃ s' code, tableMachine.step s a = some (s', code) ∧ True := by
    intro s a _ hslots
    obtain ⟨s', code, hs⟩ := step_of_slots hslots
    exact ⟨s', code, hs, trivial⟩
  obtain ⟨s', codes, hrun, -⟩ := Machine.run_of_along hgo trivial h.slots
  have hsize : s'.node.clusterSize ≤ xdeviceMaxNodes := h.size.last hrun
  have hclaimed : s'.claimed ≤ xdeviceMaxNodes := by
    rw [ClusterState.claimed, hdone s' codes hrun]
    exact hsize
  have himp : ∀ t a, True → (Passes t a → t.claimed < s'.claimed) → RoomForAll t a := by
    intro t a _ hlt hp
    exact Nat.lt_of_lt_of_le (hlt hp) hclaimed
  exact Machine.Along.imp (fun _ _ _ _ _ _ _ => trivial) himp trivial (passes_claimed_lt hrun).2

theorem claimed_create {avail : Bool} {clock : Clock} {nodeId : CString} {node : RaftNode}
    (h : xdeviceRaftCreateNode avail clock nodeId = some node) : (ClusterState.mk node []).claimed = 0 := by
  unfold xdeviceRaftCreateNode at h
  split at h
  · cases h
    rfl
  · cases h

/-- In every schedule from the creation of a node on, the table keeps within its arrays if every
check that passes finds a slot for itself and all who wait; and of the schedules that let every
call finish, in no other. -/
theorem cluster_table_bounded_iff {avail : Bool} {clock : Clock} {nodeId : CString} {node : RaftNode}
    (hcreate : xdeviceRaftCreateNode avail clock nodeId = some node) (acts : List ClusterAct) :
    (tableMachine.Along RoomForAll ⟨node, []⟩ acts → TableBounded ⟨node, []⟩ acts) ∧
    ((∀ s codes, tableMachine.run ⟨node, []⟩ acts = some (s, codes) → s.waiting = []) →
      (TableBounded ⟨node, []⟩ acts ↔ tableMachine.Along RoomForAll ⟨node, []⟩ acts)) := by
  have hclaimed : (ClusterState.mk node []).claimed ≤ xdeviceMaxNodes := by
    rw [claimed_create hcreate]
    exact Nat.zero_le _
  refine ⟨tableBounded_of_room hclaimed, fun hdone => ⟨fun h => ?_, tableBounded_of_room hclaimed⟩⟩
  exact room_of_tableBounded h hdone

/-- 62 calls one after the other, two that overlap and take the last two slots, one that comes
too late, and an election in the full cluster. -/
def fullSchedule : List ClusterAct :=
  (List.replicate 62 [ClusterAct.check (cstr "B"), .insert 0]).flatten ++
    [.check (cstr "C"), .check (cstr "D"), .insert 1, .insert 0, .check (cstr "E"), .election (votesEnv true)]

theorem overlapping_calls_bounded :
    (tableMachine.run ⟨newNodeA, []⟩ fullSchedule).map (fun r => r.1.node.clusterSize) = some xdeviceMaxNodes ∧
    TableBounded ⟨newNodeA, []⟩ fullSchedule :=
  ⟨by decide +kernel, (cluster_table_bounded_iff newNodeA_created _).1 (by decide +kernel)⟩

/-- 63 calls one after the other, then two that both find the last slot free. -/
def crowdedSchedule : List ClusterAct :=
  (List.replicate 63 [ClusterAct.check (cstr "B"), .insert 0]).flatten ++
    [.check (cstr "C"), .check (cstr "D"), .insert 0, .insert 0]

theorem last_slot_taken_twice : ∃ node acts, xdeviceRaftCreateNode true ⟨0, 0⟩ (cstr "A") = some node ∧
    ¬ TableBounded ⟨node, []⟩ acts := by
  refine ⟨newNodeA, crowdedSchedule, rfl, fun h => ?_⟩
  have hslots : ¬ tableMachine.Along (fun s a => ∀ i ∈ slotsUsed s a, i < xdeviceMaxNodes) ⟨newNodeA, []⟩
      crowdedSchedule := by decide +kernel
  exact hslots h.slots

end XDevice
