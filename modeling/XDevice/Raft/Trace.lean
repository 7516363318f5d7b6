import XDevice.Raft.Index
/-!
# What a node sends and when

The loops of the two threads once more, with what they send and receive in order, each
with the role, the term and the vote the node has at that moment. A heartbeat to a slot
whose index lies outside the log reads some value there and goes on.
-/
open Lib

namespace XDevice

/-! ## Events -/

inductive RaftAct where
  | selfVote
  | voteRequest (req : VoteRequest)
  /-- A response that has been dealt with. -/
  | voteResponse (resp : VoteResponse)
  /-- The end of an election: its term, the votes counted and the size of the cluster. -/
  | tally (term votes clusterSize : Nat)
  | appendRequest (req : AppendRequest)
  | appendResponse (resp : AppendResponse)
  | stepEnd

structure RaftEvent where
  state : NodeState
  term : Nat
  votedFor : CString
  act : RaftAct

def RaftNode.event (node : RaftNode) (act : RaftAct) : RaftEvent := ⟨node.state, node.currentTerm, node.votedFor, act⟩

/-- The term in a message that is sent. -/
def RaftAct.sent : RaftAct → Option Nat
  | .voteRequest req => some req.term
  | .appendRequest req => some req.term
  | _ => none

/-- The term in a response. -/
def RaftAct.received : RaftAct → Option Nat
  | .voteResponse resp => some resp.term
  | .appendResponse resp => some resp.term
  | _ => none

/-! ## The election thread -/

/-- `pollFrom` with its events. -/
def pollTrace (env : ElectionEnv) (node : RaftNode) (votesReceived i : Nat) :
    List CString → (RaftNode × Nat) × List RaftEvent
  | [] => ((node, votesReceived), [])
  | id :: ids =>
    if id = node.nodeId then pollTrace env node votesReceived (i + 1) ids
    else
      let request := node.event (.voteRequest (voteRequest node))
      match env.sendVoteRequest i (voteRequest node) with
      | none =>
        let (result, events) := pollTrace env node votesReceived (i + 1) ids
        (result, request :: events)
      | some resp =>
        match handleVoteResponse node (env.stepClock i) votesReceived resp with
        | (node, votesReceived, false) => ((node, votesReceived), [request, node.event (.voteResponse resp)])
        | (node, votesReceived, true) =>
          let (result, events) := pollTrace env node votesReceived (i + 1) ids
          (result, request :: node.event (.voteResponse resp) :: events)

/-- `electionIteration` with its events. -/
def electionTrace (env : ElectionEnv) (node : RaftNode) : RaftNode × List RaftEvent :=
  if electionDue node env.now then
    let candidate := startElection node env.startClock
    let ((node, votesReceived), events) := pollTrace env candidate 1 0 node.clusterNodes
    (finishElection node votesReceived, candidate.event .selfVote :: events ++
      [node.event (.tally candidate.currentTerm votesReceived node.clusterSize)])
  else (node, [])

/-! ## The heartbeat thread -/

/-- `appendRequest` where a read outside the log gives `outside`. -/
def appendRequestAt (outside : Nat) (node : RaftNode) (i : Nat) : AppendRequest :=
  let prevLogIndex := sub64 (node.nextIndex.getD i 0) 1
  let prevLogTerm :=
    if 0 < prevLogIndex then (node.logEntries[prevLogIndex - 1]?.map RaftLogEntry.term).getD outside else 0
  ⟨node.currentTerm, node.nodeId, prevLogIndex, prevLogTerm, node.commitIndex⟩

/-- `heartbeatFrom` with its events. -/
def heartbeatTraceFrom (outside : Nat → Nat) (env : HeartbeatEnv) (node : RaftNode) (i : Nat) :
    List CString → RaftNode × List RaftEvent
  | [] => (node, [])
  | id :: ids =>
    if id = node.nodeId then heartbeatTraceFrom outside env node (i + 1) ids
    else
      let req := appendRequestAt (outside i) node i
      let request := node.event (.appendRequest req)
      match env.sendAppendEntries i req with
      | none =>
        let (result, events) := heartbeatTraceFrom outside env node (i + 1) ids
        (result, request :: events)
      | some resp =>
        if node.currentTerm < resp.term then
          let node := stepDown node resp.term (env.stepClock i)
          (node, [request, node.event (.appendResponse resp)])
        else
          let node := handleAppendResponse node i req resp.success
          let (result, events) := heartbeatTraceFrom outside env node (i + 1) ids
          (result, request :: node.event (.appendResponse resp) :: events)

/-- `heartbeatIteration` with its events. -/
def heartbeatTrace (outside : Nat → Nat) (env : HeartbeatEnv) (node : RaftNode) : RaftNode × List RaftEvent :=
  if node.state = .leader ∧ raftHeartbeatIntervalMs ≤ sub64 env.now node.lastHeartbeat then
    let (node, events) := heartbeatTraceFrom outside env node 0 node.clusterNodes
    ({ node with lastHeartbeat := env.now }, events)
  else (node, [])

/-! ## Steps and runs -/

/-- A step of one node that always goes on, with its events. -/
def raftStep (outside : Nat → Nat) (node : RaftNode) : RaftStep → RaftNode × List RaftEvent × XdeviceError
  | .election env =>
    let r := electionTrace env node
    (r.1, r.2, .ok)
  | .heartbeat env =>
    let r := heartbeatTrace outside env node
    (r.1, r.2, .ok)
  | .appendLog env data =>
    let r := xdeviceRaftAppendLog env node data
    (r.1, [], r.2)
  | .addNode newNode =>
    let r := xdeviceRaftAddNodeToCluster node newNode
    (r.1, [], r.2)

/-- A node with all its events so far, the oldest first. -/
structure TracedNode where
  node : RaftNode
  events : List RaftEvent

/-- A node at the start of a run. -/
def RaftNode.traced (node : RaftNode) : TracedNode := ⟨node, [node.event .stepEnd]⟩

/-- A step, and what a read outside the log would find in it. -/
structure TracedStep where
  step : RaftStep
  outside : Nat → Nat

def traceMachine : Machine TracedNode TracedStep XdeviceError where
  step s a :=
    let r := raftStep a.outside s.node a.step
    some (⟨r.1, s.events ++ r.2.1 ++ [r.1.event .stepEnd]⟩, r.2.2)

/-! ## The same node -/

theorem pollTrace_fst (env : ElectionEnv) (node : RaftNode) (votes i : Nat) (ids : List CString) :
    (pollTrace env node votes i ids).1 = pollFrom env node votes i ids := by
  induction ids generalizing node votes i with
  | nil => rfl
  | cons id ids ih =>
    unfold pollTrace pollFrom
    split
    · exact ih ..
    · cases env.sendVoteRequest i (voteRequest node) with
      | none => exact ih ..
      | some resp =>
        dsimp only
        obtain ⟨node', votes', goOn⟩ := handleVoteResponse node (env.stepClock i) votes resp
        cases goOn with
        | false => rfl
        | true => exact ih ..

theorem electionTrace_fst (env : ElectionEnv) (node : RaftNode) :
    (electionTrace env node).1 = electionIteration env node := by
  unfold electionTrace electionIteration
  split
  · rw [← pollTrace_fst]
  · rfl

theorem appendRequestAt_eq {outside i : Nat} {node : RaftNode} {req : AppendRequest} (h : appendRequest node i = some req) :
    appendRequestAt outside node i = req := by
  unfold appendRequest at h
  dsimp only at h
  obtain ⟨term, hterm, rfl⟩ := Option.map_eq_some_iff.1 h
  unfold appendRequestAt
  dsimp only
  split at hterm
  · rename_i hpos
    rw [if_pos hpos, hterm, Option.getD_some]
  · rename_i hpos
    cases hterm
    rw [if_neg hpos]

theorem heartbeatTraceFrom_fst {env : HeartbeatEnv} {node node' : RaftNode} {i : Nat} {ids : List CString}
    (outside : Nat → Nat) (h : heartbeatFrom env node i ids = some node') :
    (heartbeatTraceFrom outside env node i ids).1 = node' := by
  induction ids generalizing node i with
  | nil =>
    cases h
    rfl
  | cons id ids ih =>
    unfold heartbeatFrom at h
    unfold heartbeatTraceFrom
    split at h
    · rename_i hid
      rw [if_pos hid]
      exact ih h
    · rename_i hid
      rw [if_neg hid]
      obtain ⟨req, hreq, h⟩ := Option.bind_eq_some_iff.1 h
      rw [appendRequestAt_eq hreq]
      dsimp only
      cases hresp : env.sendAppendEntries i req with
      | none =>
        rw [hresp] at h
        exact ih h
      | some resp =>
        rw [hresp] at h
        dsimp only at h ⊢
        split at h
        · rename_i hterm
          rw [if_pos hterm]
          cases h
          rfl
        · rename_i hterm
          rw [if_neg hterm]
          exact ih h

/-- As long as a node reads inside its log, the traced step leads to the same node. -/
theorem raftStep_eq {node node' : RaftNode} {a : RaftStep} {code : XdeviceError} (outside : Nat → Nat)
    (h : nodeMachine.step node a = some (node', code)) : ∃ events, raftStep outside node a = (node', events, code) := by
  cases a with
  | election env =>
    cases h
    refine ⟨(electionTrace env node).2, ?_⟩
    simp only [raftStep, electionTrace_fst]
  | heartbeat env =>
    obtain ⟨node1, hnode, he⟩ := Option.map_eq_some_iff.1 h
    cases he
    refine ⟨(heartbeatTrace outside env node).2, ?_⟩
    have hfst : (heartbeatTrace outside env node).1 = node' := by
      unfold heartbeatIteration at hnode
      unfold heartbeatTrace
      split at hnode
      · rename_i hdue
        obtain ⟨node2, hnode2, rfl⟩ := Option.map_eq_some_iff.1 hnode
        rw [if_pos hdue]
        dsimp only
        rw [heartbeatTraceFrom_fst outside hnode2]
      · rename_i hdue
        cases hnode
        rw [if_neg hdue]
    simp only [raftStep, hfst]
  | appendLog env data =>
    have hcall : xdeviceRaftAppendLog env node data = (node', code) := Option.some.inj h
    exact ⟨[], by simp only [raftStep, hcall]⟩
  | addNode newNode =>
    have hcall : xdeviceRaftAddNodeToCluster node newNode = (node', code) := Option.some.inj h
    exact ⟨[], by simp only [raftStep, hcall]⟩

/-- A run that reads inside the log is a traced run. -/
theorem trace_of_run {node node' : RaftNode} {steps : List RaftStep} {codes : List XdeviceError}
    (outside : Nat → Nat) (events : List RaftEvent) (h : nodeMachine.run node steps = some (node', codes)) :
    ∃ events', traceMachine.run ⟨node, events⟩ (steps.map fun a => ⟨a, outside⟩) = some (⟨node', events'⟩, codes) := by
  induction steps generalizing node codes events with
  | nil =>
    cases h
    exact ⟨events, rfl⟩
  | cons a steps ih =>
    obtain ⟨node1, code, codes, hstep, hrun, rfl⟩ := Machine.run_cons_eq_some.1 h
    obtain ⟨new, hnew⟩ := raftStep_eq outside hstep
    obtain ⟨events', hrun'⟩ := ih (events ++ new ++ [node1.event .stepEnd]) hrun
    refine ⟨events', Machine.run_cons_eq_some.2 ⟨_, code, codes, ?_, hrun', rfl⟩⟩
    simp only [traceMachine, hnew]

end XDevice
