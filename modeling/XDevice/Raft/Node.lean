import XDevice.Common
/-!
# A Raft node

`raft.c`: the state of one node and what its two threads and its callers do to
it. An iteration of either thread holds the mutex throughout, so it is one step
of the node; the election iteration is also given in the pieces between its
vote requests, where other nodes run. A request that is not answered, for want
of a callback or because the callback fails, is answered `none`.
-/

namespace XDevice

def raftHeartbeatIntervalMs : Nat := 50
def raftElectionTimeoutMinMs : Nat := 150
def raftElectionTimeoutMaxMs : Nat := 300

/-- `sizeof(xdevice_raft_log_entry_t)`. -/
def sizeofRaftLogEntry : Nat := 32

/-- `xdevice_node_state_t`. -/
inductive NodeState where
  | unknown
  | leader
  | follower
  | candidate
  | down
  deriving DecidableEq, Repr

/-! ## Messages -/

structure RaftLogEntry where
  term : Nat
  index : Nat
  data : Bytes

structure VoteRequest where
  term : Nat
  candidateId : CString
  lastLogIndex : Nat
  lastLogTerm : Nat
  deriving DecidableEq

structure VoteResponse where
  term : Nat
  voteGranted : Bool
  deriving DecidableEq

/-- A heartbeat: `entries` is null and `entries_count` zero. -/
structure AppendRequest where
  term : Nat
  leaderId : CString
  prevLogIndex : Nat
  prevLogTerm : Nat
  leaderCommit : Nat

structure AppendResponse where
  term : Nat
  success : Bool

/-! ## State -/

/-- `struct xdevice_raft_node`. `clusterNodes` holds the ids in the slots below
`cluster_size`, `logEntries` the entries below `log_size`. -/
structure RaftNode where
  nodeId : CString
  state : NodeState
  currentTerm : Nat
  votedFor : CString
  commitIndex : Nat
  logEntries : List RaftLogEntry
  logCapacity : Nat
  nextIndex : List Nat
  matchIndex : List Nat
  clusterNodes : List CString
  electionTimeout : Nat
  lastHeartbeat : Nat

/-- What `get_current_time_ms` and `rand` say when the election timer is reset. -/
structure Clock where
  now : Nat
  rand : Nat

namespace RaftNode

def clusterSize (node : RaftNode) : Nat := node.clusterNodes.length

def logSize (node : RaftNode) : Nat := node.logEntries.length

end RaftNode

def generateElectionTimeout (rand : Nat) : Nat :=
  raftElectionTimeoutMinMs + rand % (raftElectionTimeoutMaxMs - raftElectionTimeoutMinMs)

def resetElectionTimer (node : RaftNode) (clock : Clock) : RaftNode :=
  { node with electionTimeout := add64 clock.now (generateElectionTimeout clock.rand) }

/-- `none` is a null pointer; `avail` says whether memory and a mutex were to be had. -/
def xdeviceRaftCreateNode (avail : Bool) (clock : Clock) (nodeId : CString) : Option RaftNode :=
  if avail then
    some (resetElectionTimer
      { nodeId := strncpy nodeId (xdeviceMaxNodeIdLen - 1)
        state := .follower
        currentTerm := 0
        votedFor := []
        commitIndex := 0
        logEntries := []
        logCapacity := 1024
        nextIndex := List.replicate xdeviceMaxNodes 0
        matchIndex := List.replicate xdeviceMaxNodes 0
        clusterNodes := []
        electionTimeout := 0
        lastHeartbeat := 0 } clock)
  else none

/-- A response with a higher term: back to follower, the vote forgotten. -/
def stepDown (node : RaftNode) (term : Nat) (clock : Clock) : RaftNode :=
  resetElectionTimer { node with currentTerm := term, state := .follower, votedFor := [] } clock

/-! ## The election thread -/

def electionDue (node : RaftNode) (now : Nat) : Bool := node.state ≠ .leader && node.electionTimeout ≤ now

def startElection (node : RaftNode) (clock : Clock) : RaftNode :=
  resetElectionTimer
    { node with state := .candidate, currentTerm := add64 node.currentTerm 1, votedFor := node.nodeId } clock

def voteRequest (node : RaftNode) : VoteRequest where
  term := node.currentTerm
  candidateId := node.nodeId
  lastLogIndex := node.logSize
  lastLogTerm := (node.logEntries.getLast?.map RaftLogEntry.term).getD 0

/-- A vote counts before the term of its response is looked at; the last
component says whether the loop goes on. -/
def handleVoteResponse (node : RaftNode) (clock : Clock) (votesReceived : Nat) (resp : VoteResponse) :
    RaftNode × Nat × Bool :=
  let votesReceived := if resp.voteGranted then votesReceived + 1 else votesReceived
  if node.currentTerm < resp.term then (stepDown node resp.term clock, votesReceived, false)
  else (node, votesReceived, true)

def finishElection (node : RaftNode) (votesReceived : Nat) : RaftNode :=
  if node.state = .candidate ∧ node.clusterSize / 2 < votesReceived then
    { node with
      state := .leader
      nextIndex := List.replicate node.clusterSize (add64 node.logSize 1) ++ node.nextIndex.drop node.clusterSize
      matchIndex := List.replicate node.clusterSize 0 ++ node.matchIndex.drop node.clusterSize
      lastHeartbeat := 0 }
  else node

/-- What one election iteration meets: the time it reads, the answers to its
requests slot by slot, and the clock at each reset of the timer. -/
structure ElectionEnv where
  now : Nat
  startClock : Clock
  sendVoteRequest : Nat → VoteRequest → Option VoteResponse
  stepClock : Nat → Clock

/-- The loop over `cluster_nodes` from slot `i` on. -/
def pollFrom (env : ElectionEnv) (node : RaftNode) (votesReceived i : Nat) : List CString → RaftNode × Nat
  | [] => (node, votesReceived)
  | id :: ids =>
    if id = node.nodeId then pollFrom env node votesReceived (i + 1) ids
    else
      match env.sendVoteRequest i (voteRequest node) with
      | none => pollFrom env node votesReceived (i + 1) ids
      | some resp =>
        match handleVoteResponse node (env.stepClock i) votesReceived resp with
        | (node, votesReceived, false) => (node, votesReceived)
        | (node, votesReceived, true) => pollFrom env node votesReceived (i + 1) ids

/-- One iteration of `election_thread_func`. -/
def electionIteration (env : ElectionEnv) (node : RaftNode) : RaftNode :=
  if electionDue node env.now then
    let (node, votesReceived) := pollFrom env (startElection node env.startClock) 1 0 node.clusterNodes
    finishElection node votesReceived
  else node

/-- The ids in the slots from `i` on whose requests are granted. -/
def grantedFrom (env : ElectionEnv) (node : RaftNode) (i : Nat) : List CString → List CString
  | [] => []
  | id :: ids =>
    if id ≠ node.nodeId ∧ (env.sendVoteRequest i (voteRequest node)).any VoteResponse.voteGranted then
      id :: grantedFrom env node (i + 1) ids
    else grantedFrom env node (i + 1) ids

/-- The loop counts the granted requests, or ends in a step down. -/
theorem pollFrom_cases (env : ElectionEnv) (node : RaftNode) (votes i : Nat) (ids : List CString) :
    pollFrom env node votes i ids = (node, votes + (grantedFrom env node i ids).length) ∨
      ∃ j resp, env.sendVoteRequest j (voteRequest node) = some resp ∧ node.currentTerm < resp.term ∧
        (pollFrom env node votes i ids).1 = stepDown node resp.term (env.stepClock j) := by
  induction ids generalizing votes i with
  | nil => exact .inl rfl
  | cons id ids ih =>
    by_cases hid : id = node.nodeId
    · simpa [pollFrom, grantedFrom, hid] using ih votes (i + 1)
    · cases hresp : env.sendVoteRequest i (voteRequest node) with
      | none => simpa [pollFrom, grantedFrom, hid, hresp] using ih votes (i + 1)
      | some resp =>
        by_cases hterm : node.currentTerm < resp.term
        · refine .inr ⟨i, resp, hresp, hterm, ?_⟩
          simp [pollFrom, hid, hresp, handleVoteResponse, hterm]
        · cases hg : resp.voteGranted with
          | true =>
            simpa [pollFrom, grantedFrom, hid, hresp, handleVoteResponse, hterm, hg, Nat.add_assoc, Nat.add_comm 1]
              using ih (votes + 1) (i + 1)
          | false =>
            simpa [pollFrom, grantedFrom, hid, hresp, handleVoteResponse, hterm, hg] using ih votes (i + 1)

/-- With no higher term in the responses, every granted request is counted. -/
theorem pollFrom_calm {env : ElectionEnv} {node : RaftNode}
    (hcalm : ∀ i resp, env.sendVoteRequest i (voteRequest node) = some resp → resp.term ≤ node.currentTerm)
    (votes i : Nat) (ids : List CString) :
    pollFrom env node votes i ids = (node, votes + (grantedFrom env node i ids).length) := by
  rcases pollFrom_cases env node votes i ids with h | ⟨j, resp, hresp, hterm, -⟩
  · exact h
  · exact absurd (hcalm j resp hresp) (Nat.not_le.2 hterm)

/-- An iteration does nothing, or ends in the count of the granted requests, or in a step down. -/
theorem electionIteration_cases (env : ElectionEnv) (node : RaftNode) :
    electionIteration env node = node ∨ node.state ≠ .leader ∧
      (electionIteration env node = finishElection (startElection node env.startClock)
          (1 + (grantedFrom env (startElection node env.startClock) 0 node.clusterNodes).length) ∨
        ∃ term clock, electionIteration env node = stepDown (startElection node env.startClock) term clock) := by
  unfold electionIteration
  split
  · rename_i hdue
    have hs : node.state ≠ .leader := by
      simp only [electionDue, Bool.and_eq_true, decide_eq_true_iff] at hdue
      exact hdue.1
    have hpoll := pollFrom_cases env (startElection node env.startClock) 1 0 node.clusterNodes
    generalize pollFrom env (startElection node env.startClock) 1 0 node.clusterNodes = polled at hpoll ⊢
    obtain ⟨node', votes⟩ := polled
    refine .inr ⟨hs, ?_⟩
    rcases hpoll with he | ⟨j, resp, -, -, rfl⟩
    · cases he
      exact .inl rfl
    · -- a node that stepped down is no candidate any more
      exact .inr ⟨resp.term, env.stepClock j, if_neg fun hwon => nomatch hwon.1⟩
  · exact .inl rfl

/-- What a loop over the slots finds at its place, and what is left for it. -/
theorem slot_of_drop {slots ids : List CString} {id : CString} {i : Nat} (h : slots.drop i = id :: ids) :
    slots[i]? = some id ∧ slots.drop (i + 1) = ids := by
  constructor
  · have hhead := congrArg List.head? h
    simpa [List.head?_drop] using hhead
  · rw [← List.tail_drop, h, List.tail_cons]

/-! ## The heartbeat thread -/

/-- The request for slot `i`; reading a term outside the log is undefined. -/
def appendRequest (node : RaftNode) (i : Nat) : Option AppendRequest :=
  let prevLogIndex := sub64 (node.nextIndex.getD i 0) 1
  (if 0 < prevLogIndex then node.logEntries[prevLogIndex - 1]?.map RaftLogEntry.term else some 0).map
    fun prevLogTerm => ⟨node.currentTerm, node.nodeId, prevLogIndex, prevLogTerm, node.commitIndex⟩

def handleAppendResponse (node : RaftNode) (i : Nat) (req : AppendRequest) (success : Bool) : RaftNode :=
  if success then
    { node with
      matchIndex := node.matchIndex.set i req.prevLogIndex
      nextIndex := node.nextIndex.set i (add64 req.prevLogIndex 1) }
  else if 1 < node.nextIndex.getD i 0 then
    { node with nextIndex := node.nextIndex.set i (node.nextIndex.getD i 0 - 1) }
  else node

/-- Only the indices of the followers change. -/
theorem handleAppendResponse_changes (node : RaftNode) (i : Nat) (req : AppendRequest) (success : Bool) :
    ∃ nextIndex matchIndex,
      handleAppendResponse node i req success = { node with nextIndex := nextIndex, matchIndex := matchIndex } := by
  unfold handleAppendResponse
  split
  · exact ⟨_, _, rfl⟩
  · split
    · exact ⟨_, node.matchIndex, rfl⟩
    · exact ⟨node.nextIndex, node.matchIndex, rfl⟩

structure HeartbeatEnv where
  now : Nat
  sendAppendEntries : Nat → AppendRequest → Option AppendResponse
  stepClock : Nat → Clock

/-- The loop over `cluster_nodes` from slot `i` on. -/
def heartbeatFrom (env : HeartbeatEnv) (node : RaftNode) (i : Nat) : List CString → Option RaftNode
  | [] => some node
  | id :: ids =>
    if id = node.nodeId then heartbeatFrom env node (i + 1) ids
    else
      (appendRequest node i).bind fun req =>
        match env.sendAppendEntries i req with
        | none => heartbeatFrom env node (i + 1) ids
        | some resp =>
          if node.currentTerm < resp.term then some (stepDown node resp.term (env.stepClock i))
          else heartbeatFrom env (handleAppendResponse node i req resp.success) (i + 1) ids

/-- One iteration of `heartbeat_thread_func`. -/
def heartbeatIteration (env : HeartbeatEnv) (node : RaftNode) : Option RaftNode :=
  if node.state = .leader ∧ raftHeartbeatIntervalMs ≤ sub64 env.now node.lastHeartbeat then
    (heartbeatFrom env node 0 node.clusterNodes).map fun node => { node with lastHeartbeat := env.now }
  else some node

/-! ## Callers -/

def xdeviceRaftAddNodeToCluster (node : RaftNode) (newNode : CString) : RaftNode × XdeviceError :=
  if xdeviceMaxNodes ≤ node.clusterSize then (node, .invalidParam)
  else ({ node with clusterNodes := node.clusterNodes ++ [newNode] }, .ok)

theorem addNode_changes (node : RaftNode) (newNode : CString) :
    ∃ clusterNodes, (xdeviceRaftAddNodeToCluster node newNode).1 = { node with clusterNodes := clusterNodes } := by
  unfold xdeviceRaftAddNodeToCluster
  split
  · exact ⟨node.clusterNodes, rfl⟩
  · exact ⟨_, rfl⟩

/-- Whether `realloc` and `malloc` find memory during one call. -/
structure AppendEnv where
  reallocOk : Bool
  mallocOk : Bool

/-- Room for one more entry; `none` is `XDEVICE_ERROR_OUT_OF_MEMORY`. -/
def growLog (env : AppendEnv) (node : RaftNode) : Option RaftNode :=
  if node.logCapacity ≤ node.logSize then
    let newCapacity := mul64 node.logCapacity 2
    if env.reallocOk ∧ mul64 sizeofRaftLogEntry newCapacity ≤ ptrdiffMax then
      some { node with logCapacity := newCapacity }
    else none
  else some node

def xdeviceRaftAppendLog (env : AppendEnv) (node : RaftNode) (data : Bytes) : RaftNode × XdeviceError :=
  if data.length = 0 then (node, .invalidParam)
  else if node.state ≠ .leader then (node, .permission)
  else
    match growLog env node with
    | none => (node, .outOfMemory)
    | some node =>
      if env.mallocOk ∧ data.length ≤ ptrdiffMax then
        ({ node with logEntries := node.logEntries ++ [⟨node.currentTerm, add64 node.logSize 1, data⟩] }, .ok)
      else (node, .outOfMemory)

theorem growLog_changes {env : AppendEnv} {node node' : RaftNode} (h : growLog env node = some node') :
    ∃ logCapacity, node' = { node with logCapacity := logCapacity } := by
  unfold growLog at h
  split at h
  · dsimp only at h
    split at h
    · cases h
      exact ⟨_, rfl⟩
    · cases h
  · cases h
    exact ⟨node.logCapacity, rfl⟩

/-- Whatever comes of it, only the log changes. -/
theorem appendLog_changes (env : AppendEnv) (node : RaftNode) (data : Bytes) :
    ∃ logEntries logCapacity, (xdeviceRaftAppendLog env node data).1 =
      { node with logEntries := logEntries, logCapacity := logCapacity } := by
  unfold xdeviceRaftAppendLog
  split
  · exact ⟨node.logEntries, node.logCapacity, rfl⟩
  · split
    · exact ⟨node.logEntries, node.logCapacity, rfl⟩
    · split
      · exact ⟨node.logEntries, node.logCapacity, rfl⟩
      · rename_i node' hgrow
        obtain ⟨logCapacity, rfl⟩ := growLog_changes hgrow
        split
        · exact ⟨_, logCapacity, rfl⟩
        · exact ⟨node.logEntries, logCapacity, rfl⟩

end XDevice
