import XDevice.Raft.Index
import XDevice.Raft.Majority
/-!
# A cluster of nodes

Nodes with their election iterations in pieces: other nodes run between the vote
requests of one iteration, while the node's own mutex keeps its heartbeats and
calls out. How a node answers a request is not part of `raft.c`, which only
declares `xdevice_raft_handle_vote_request`; a vote is an entry in a ledger,
under the conditions stated where it is granted.
-/
open Lib

namespace XDevice

/-- Where a node is in an election iteration: outside, at the head of the loop
over the slots, or waiting for the answer to a request. -/
inductive ElectionPhase where
  | idle
  | polling (votesReceived slot : Nat)
  | awaiting (votesReceived slot : Nat) (peer : CString) (req : VoteRequest)
  deriving DecidableEq

structure ClusterMember where
  node : RaftNode
  phase : ElectionPhase

/-- The nodes by id, the vote requests sent and granted, each with the id of its
voter, and all votes: voter, term and candidate. -/
structure RaftCluster where
  member : CString → ClusterMember
  sent : List (CString × VoteRequest)
  granted : List (CString × VoteRequest)
  votes : List (CString × Nat × CString)

namespace RaftCluster

def setMember (c : RaftCluster) (id : CString) (m : ClusterMember) : RaftCluster :=
  { c with member := fun id' => if id' = id then m else c.member id' }

end RaftCluster

inductive ClusterStep where
  /-- the election thread of `id` runs up to its loop -/
  | electionStart (id : CString) (now : Nat) (clock : Clock)
  /-- `id` sends the next vote request, or leaves the loop -/
  | sendVoteRequest (id : CString)
  /-- `voter` grants a request sent to it -/
  | grantVote (voter : CString) (req : VoteRequest)
  /-- the answer comes back to `id`, or is lost -/
  | voteResponse (id : CString) (resp : Option VoteResponse) (clock : Clock)
  /-- `id`, as a voter, takes note of a vote or of a leader, or adopts a term -/
  | voterUpdate (id : CString) (term : Nat) (demote : Bool) (votedFor : CString) (electionTimeout : Nat)
  | heartbeat (id : CString) (env : HeartbeatEnv)
  | appendLog (id : CString) (env : AppendEnv) (data : Bytes)

/-- What a voter changes of its own node: whoever adopts a higher term follows. -/
def voterUpdate (node : RaftNode) (term : Nat) (demote : Bool) (votedFor : CString) (electionTimeout : Nat) :
    RaftNode :=
  { node with
    currentTerm := max node.currentTerm term
    state := if node.currentTerm < term ∨ demote then .follower else node.state
    votedFor := votedFor
    electionTimeout := electionTimeout }

/-- A node inside an election iteration holds its mutex; a step that needs it is
not taken then. -/
def ClusterMember.unlocked (m : ClusterMember) : Bool := m.phase = .idle

def electionStartStep (c : RaftCluster) (id : CString) (now : Nat) (clock : Clock) : Option RaftCluster :=
  let m := c.member id
  if ¬ m.unlocked then none
  else if electionDue m.node now then
    let node := startElection m.node clock
    some { c.setMember id ⟨node, .polling 1 0⟩ with votes := (id, node.currentTerm, node.votedFor) :: c.votes }
  else some c

def sendVoteRequestStep (c : RaftCluster) (id : CString) : Option RaftCluster :=
  let m := c.member id
  match m.phase with
  | .polling votes slot =>
    match m.node.clusterNodes[slot]? with
    | none => some (c.setMember id ⟨finishElection m.node votes, .idle⟩)
    | some peer =>
      if peer = m.node.nodeId then some (c.setMember id ⟨m.node, .polling votes (slot + 1)⟩)
      else
        let req := voteRequest m.node
        some { c.setMember id ⟨m.node, .awaiting votes slot peer req⟩ with sent := (peer, req) :: c.sent }
  | _ => none

/-- Only a request that was sent is granted, for the term it asks for, and never
for a term below the voter's own. -/
def grantVoteStep (c : RaftCluster) (voter : CString) (req : VoteRequest) : Option RaftCluster :=
  if (voter, req) ∈ c.sent ∧ (c.member voter).node.currentTerm ≤ req.term then
    some { c with
      granted := (voter, req) :: c.granted
      votes := (voter, req.term, req.candidateId) :: c.votes }
  else none

/-- A granted response comes only from a voter that granted this request. -/
def voteResponseStep (c : RaftCluster) (id : CString) (resp : Option VoteResponse) (clock : Clock) :
    Option RaftCluster :=
  let m := c.member id
  match m.phase with
  | .awaiting votes slot peer req =>
    match resp with
    | none => some (c.setMember id ⟨m.node, .polling votes (slot + 1)⟩)
    | some resp =>
      if resp.voteGranted ∧ (peer, req) ∉ c.granted then none
      else
        match handleVoteResponse m.node clock votes resp with
        | (node, votes, false) => some (c.setMember id ⟨finishElection node votes, .idle⟩)
        | (node, votes, true) => some (c.setMember id ⟨node, .polling votes (slot + 1)⟩)
  | _ => none

def clusterStep (c : RaftCluster) : ClusterStep → Option RaftCluster
  | .electionStart id now clock => electionStartStep c id now clock
  | .sendVoteRequest id => sendVoteRequestStep c id
  | .grantVote voter req => grantVoteStep c voter req
  | .voteResponse id resp clock => voteResponseStep c id resp clock
  | .voterUpdate id term demote votedFor electionTimeout =>
    let m := c.member id
    some (c.setMember id ⟨voterUpdate m.node term demote votedFor electionTimeout, m.phase⟩)
  | .heartbeat id env =>
    let m := c.member id
    if m.unlocked then (heartbeatIteration env m.node).map fun node => c.setMember id ⟨node, m.phase⟩ else none
  | .appendLog id env data =>
    let m := c.member id
    if m.unlocked then some (c.setMember id ⟨(xdeviceRaftAppendLog env m.node data).1, m.phase⟩) else none

def clusterMachine : Machine RaftCluster ClusterStep Unit where
  step c a := (clusterStep c a).map fun c => (c, ())

/-- Every node of `ids` newly created and told of the same `ids`, nothing sent and
nothing voted. -/
structure Started (ids : List CString) (c : RaftCluster) : Prop where
  nodes : ∀ id ∈ ids, ∃ clock node, xdeviceRaftCreateNode true clock id = some node ∧
    c.member id = ⟨addAll node ids, .idle⟩
  sent : c.sent = []
  granted : c.granted = []
  votes : c.votes = []

end XDevice
