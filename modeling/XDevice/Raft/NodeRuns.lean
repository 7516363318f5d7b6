import XDevice.Raft.Electability
/-!
# A node of a cluster runs as it does alone

In a cluster an election comes in pieces, and other nodes run between them. The mutex is held
all the while, so that the node ends up where one iteration of `election_thread_func` with the
same answers takes it. Every run of a cluster is a run of each of its nodes, and the other
way round.
-/
open Lib

namespace XDevice

/-- A step, but none that `id` takes as a voter. -/
def NotVoting (id : CString) : ClusterStep → Prop
  | .voterUpdate voter _ _ _ _ => voter ≠ id
  | _ => True

/-- A step that adds no node to the cluster. -/
def KeepsCluster : RaftStep → Prop
  | .addNode _ => False
  | _ => True

/-! ## An iteration in pieces -/

/-- What is left of an iteration behind the loop. -/
def endElection (r : RaftNode × Nat) : RaftNode := finishElection r.1 r.2

/-- Two iterations that meet the same before the slot. -/
structure SameBelow (slot : Nat) (env env' : ElectionEnv) : Prop where
  now : env'.now = env.now
  startClock : env'.startClock = env.startClock
  answers : ∀ i < slot, env'.sendVoteRequest i = env.sendVoteRequest i
  clocks : ∀ i < slot, env'.stepClock i = env.stepClock i

/-- The request of the slot has this answer. -/
def ElectionEnv.answer (env : ElectionEnv) (slot : Nat) (resp : Option VoteResponse) (clock : Clock) : ElectionEnv :=
  { env with
    sendVoteRequest := fun i => if i = slot then fun _ => resp else env.sendVoteRequest i
    stepClock := fun i => if i = slot then clock else env.stepClock i }

/-- An iteration of `node0` has come to the slot with the node and its votes, and goes on from
there whatever is still to be answered. -/
def GoesOn (node0 node : RaftNode) (votes slot : Nat) : Prop :=
  ∃ env, ∀ env', SameBelow slot env env' →
    electionIteration env' node0 = endElection (pollFrom env' node votes slot (node.clusterNodes.drop slot))

section
variable {env env' : ElectionEnv} {node0 node node' : RaftNode} {votes votes' slot : Nat} {peer : CString}
  {resp : VoteResponse} {clock : Clock}

theorem SameBelow.answered {resp : Option VoteResponse} (h : SameBelow (slot + 1) (env.answer slot resp clock) env') :
    SameBelow slot env env' ∧ (∀ req, env'.sendVoteRequest slot req = resp) ∧ env'.stepClock slot = clock := by
  refine ⟨⟨h.now, h.startClock, fun i hi => ?_, fun i hi => ?_⟩, fun req => ?_, ?_⟩
  · rw [h.answers i (Nat.lt_succ_of_lt hi)]
    exact if_neg (Nat.ne_of_lt hi)
  · rw [h.clocks i (Nat.lt_succ_of_lt hi)]
    exact if_neg (Nat.ne_of_lt hi)
  · rw [h.answers slot (Nat.lt_succ_self slot)]
    simp [ElectionEnv.answer]
  · rw [h.clocks slot (Nat.lt_succ_self slot)]
    exact if_pos rfl

theorem SameBelow.refl (slot : Nat) (env : ElectionEnv) : SameBelow slot env env := ⟨rfl, rfl, fun _ _ => rfl, fun _ _ => rfl⟩

theorem electionIteration_due (hdue : electionDue node env.now = true) :
    electionIteration env node = endElection (pollFrom env (startElection node env.startClock) 1 0 node.clusterNodes) := by
  unfold electionIteration
  rw [if_pos hdue]
  rfl

theorem pollFrom_own (h : peer = node.nodeId) (ids : List CString) :
    pollFrom env node votes slot (peer :: ids) = pollFrom env node votes (slot + 1) ids := by
  rw [pollFrom, if_pos h]

theorem pollFrom_lost (hne : peer ≠ node.nodeId) (hlost : env.sendVoteRequest slot (voteRequest node) = none)
    (ids : List CString) : pollFrom env node votes slot (peer :: ids) = pollFrom env node votes (slot + 1) ids := by
  rw [pollFrom, if_neg hne, hlost]

theorem pollFrom_answered {more : Bool} (hne : peer ≠ node.nodeId)
    (hanswer : env.sendVoteRequest slot (voteRequest node) = some resp)
    (hresp : handleVoteResponse node (env.stepClock slot) votes resp = (node', votes', more)) (ids : List CString) :
    pollFrom env node votes slot (peer :: ids) =
      if more then pollFrom env node' votes' (slot + 1) ids else (node', votes') := by
  rw [pollFrom, if_neg hne, hanswer]
  dsimp only
  rw [hresp]
  cases more with
  | true => rfl
  | false => rfl

/-- While the loop goes on, the node stays as it is. -/
theorem handleVoteResponse_more (h : handleVoteResponse node clock votes resp = (node', votes', true)) : node' = node := by
  unfold handleVoteResponse at h
  dsimp only at h
  split at h <;> cases h
  rfl

/-- What the loop finds in its slot. -/
theorem drop_slot (hslot : node.clusterNodes[slot]? = some peer) :
    node.clusterNodes.drop slot = peer :: node.clusterNodes.drop (slot + 1) := by
  obtain ⟨hlt, rfl⟩ := List.getElem?_eq_some_iff.1 hslot
  exact List.drop_eq_getElem_cons hlt

theorem GoesOn.start {now : Nat} (hdue : electionDue node0 now = true) (clock : Clock) :
    GoesOn node0 (startElection node0 clock) 1 0 := by
  refine ⟨⟨now, clock, fun _ _ => none, fun _ => clock⟩, fun env' h => ?_⟩
  have hclock : env'.startClock = clock := h.startClock
  rw [electionIteration_due (by rw [h.now]; exact hdue), hclock]
  rfl

theorem GoesOn.finish (h : GoesOn node0 node votes slot) (hpast : node.clusterNodes[slot]? = none) :
    ∃ env, electionIteration env node0 = finishElection node votes := by
  obtain ⟨env, hall⟩ := h
  refine ⟨env, ?_⟩
  rw [hall env (.refl slot env), List.drop_eq_nil_of_le (List.getElem?_eq_none_iff.1 hpast)]
  rfl

theorem GoesOn.own (h : GoesOn node0 node votes slot) (hslot : node.clusterNodes[slot]? = some node.nodeId) :
    GoesOn node0 node votes (slot + 1) := by
  obtain ⟨env, hall⟩ := h
  refine ⟨env.answer slot none ⟨0, 0⟩, fun env' hsame => ?_⟩
  rw [hall env' hsame.answered.1, drop_slot hslot, pollFrom_own rfl]

theorem GoesOn.lost (h : GoesOn node0 node votes slot) (hslot : node.clusterNodes[slot]? = some peer)
    (hne : peer ≠ node.nodeId) : GoesOn node0 node votes (slot + 1) := by
  obtain ⟨env, hall⟩ := h
  refine ⟨env.answer slot none ⟨0, 0⟩, fun env' hsame => ?_⟩
  obtain ⟨hbelow, hanswer, -⟩ := hsame.answered
  rw [hall env' hbelow, drop_slot hslot, pollFrom_lost hne (hanswer _)]

/-- An answer that leaves the term alone. -/
theorem GoesOn.next (h : GoesOn node0 node votes slot) (hslot : node.clusterNodes[slot]? = some peer)
    (hne : peer ≠ node.nodeId) (hresp : handleVoteResponse node clock votes resp = (node', votes', true)) :
    GoesOn node0 node' votes' (slot + 1) := by
  obtain ⟨env, hall⟩ := h
  obtain rfl := handleVoteResponse_more hresp
  refine ⟨env.answer slot (some resp) clock, fun env' hsame => ?_⟩
  obtain ⟨hbelow, hanswer, hclock⟩ := hsame.answered
  rw [hall env' hbelow, drop_slot hslot, pollFrom_answered hne (hanswer _) (hclock ▸ hresp), if_pos rfl]

/-- An answer with a higher term ends the loop. -/
theorem GoesOn.stop (h : GoesOn node0 node votes slot) (hslot : node.clusterNodes[slot]? = some peer)
    (hne : peer ≠ node.nodeId) (hresp : handleVoteResponse node clock votes resp = (node', votes', false)) :
    ∃ env, electionIteration env node0 = finishElection node' votes' := by
  obtain ⟨env, hall⟩ := h
  obtain ⟨hbelow, hanswer, hclock⟩ := SameBelow.answered (SameBelow.refl (slot + 1) (env.answer slot (some resp) clock))
  refine ⟨env.answer slot (some resp) clock, ?_⟩
  rw [hall _ hbelow, drop_slot hslot, pollFrom_answered hne (hanswer _) (hclock ▸ hresp), if_neg Bool.false_ne_true]
  rfl

end

/-! ## In a cluster -/

/-- How a node that is in this phase comes from `node0`. -/
def InPhase (node0 node : RaftNode) : ElectionPhase → Prop
  | .idle => node = node0
  | .polling votes slot => GoesOn node0 node votes slot
  | .awaiting votes slot peer _ =>
    GoesOn node0 node votes slot ∧ node.clusterNodes[slot]? = some peer ∧ peer ≠ node.nodeId

/-- A run of the node alone, from `start`, leads to where the member is, or to where its iteration
began. -/
def RunsAlone (start : RaftNode) (m : ClusterMember) : Prop :=
  ∃ node0, nodeMachine.Reaches KeepsCluster start node0 ∧ InPhase node0 m.node m.phase

section
variable {start node0 node : RaftNode} {id : CString} {c c' : RaftCluster} {a : ClusterStep}

/-- Only the node that takes a step changes. -/
theorem step_member (hs : clusterStep c a = some c') (hne : id ≠ a.actor) : c'.member id = c.member id := by
  cases a with
  | electionStart id' now clock =>
    simp only [clusterStep, electionStartStep] at hs
    split at hs
    · cases hs
    · split at hs
      · cases hs
        exact setMember_other c hne _
      · cases hs
        rfl
  | sendVoteRequest id' =>
    simp only [clusterStep, sendVoteRequestStep] at hs
    split at hs
    · split at hs
      · cases hs
        exact setMember_other c hne _
      · split at hs <;> cases hs <;> exact setMember_other c hne _
    · cases hs
  | grantVote voter req =>
    simp only [clusterStep, grantVoteStep] at hs
    split at hs
    · cases hs
      rfl
    · cases hs
  | voteResponse id' resp clock =>
    simp only [clusterStep, voteResponseStep] at hs
    split at hs
    · split at hs
      · cases hs
        exact setMember_other c hne _
      · split at hs
        · cases hs
        · split at hs <;> cases hs <;> exact setMember_other c hne _
    · cases hs
  | voterUpdate voter term demote votedFor timeout =>
    cases hs
    exact setMember_other c hne _
  | heartbeat id' env =>
    simp only [clusterStep] at hs
    split at hs
    · obtain ⟨node, -, rfl⟩ := Option.map_eq_some_iff.1 hs
      exact setMember_other c hne _
    · cases hs
  | appendLog id' env data =>
    simp only [clusterStep] at hs
    split at hs
    · cases hs
      exact setMember_other c hne _
    · cases hs

/-- An iteration that has ended is a step of the node alone. -/
theorem RunsAlone.iterated (hreach : nodeMachine.Reaches KeepsCluster start node0)
    (h : ∃ env, electionIteration env node0 = node) : RunsAlone start ⟨node, .idle⟩ := by
  obtain ⟨env, rfl⟩ := h
  have hstep : nodeMachine.step node0 (.election env) = some (electionIteration env node0, .ok) := rfl
  exact ⟨_, hreach.trans (.step hstep trivial (.refl _)), rfl⟩

/-- A step under the mutex, outside an iteration. -/
theorem RunsAlone.calls {m : ClusterMember} (h : RunsAlone start m) (hunlocked : m.unlocked = true) {act : RaftStep}
    {code : XdeviceError} (hs : nodeMachine.step m.node act = some (node, code)) (hact : KeepsCluster act) :
    RunsAlone start ⟨node, m.phase⟩ := by
  obtain ⟨node0, hreach, hphase⟩ := h
  have hidle : m.phase = .idle := of_decide_eq_true hunlocked
  rw [hidle] at hphase ⊢
  cases hphase
  exact ⟨node, hreach.trans (.step hs hact (.refl _)), rfl⟩

theorem runsAlone_election {now : Nat} {clock : Clock} (h : RunsAlone start (c.member id))
    (hs : clusterStep c (.electionStart id now clock) = some c') : RunsAlone start (c'.member id) := by
  simp only [clusterStep, electionStartStep] at hs
  split at hs
  · cases hs
  · rename_i hunlocked
    split at hs
    · rename_i hdue
      cases hs
      obtain ⟨node0, hreach, hphase⟩ := h
      have hidle : (c.member id).phase = .idle := of_decide_eq_true (not_not.1 hunlocked)
      rw [hidle] at hphase
      cases hphase
      change RunsAlone start ((c.setMember id _).member id)
      rw [setMember_self]
      exact ⟨_, hreach, .start hdue clock⟩
    · cases hs
      exact h

theorem runsAlone_send (h : RunsAlone start (c.member id)) (hs : clusterStep c (.sendVoteRequest id) = some c') :
    RunsAlone start (c'.member id) := by
  obtain ⟨node0, hreach, hphase⟩ := h
  simp only [clusterStep, sendVoteRequestStep] at hs
  split at hs
  · rename_i votes slot hpolling
    rw [hpolling] at hphase
    have hgoes : GoesOn node0 (c.member id).node votes slot := hphase
    split at hs
    · rename_i hpast
      cases hs
      rw [setMember_self]
      exact .iterated hreach (hgoes.finish hpast)
    · rename_i peer hslot
      split at hs
      · rename_i hown
        cases hs
        rw [setMember_self]
        exact ⟨node0, hreach, hgoes.own (hown ▸ hslot)⟩
      · rename_i hne
        cases hs
        change RunsAlone start ((c.setMember id _).member id)
        rw [setMember_self]
        exact ⟨node0, hreach, hgoes, hslot, hne⟩
  · cases hs

theorem runsAlone_response {resp : Option VoteResponse} {clock : Clock} (h : RunsAlone start (c.member id))
    (hs : clusterStep c (.voteResponse id resp clock) = some c') : RunsAlone start (c'.member id) := by
  obtain ⟨node0, hreach, hphase⟩ := h
  simp only [clusterStep, voteResponseStep] at hs
  split at hs
  · rename_i votes slot peer req hawaiting
    rw [hawaiting] at hphase
    obtain ⟨hgoes, hslot, hne⟩ := hphase
    split at hs
    · cases hs
      rw [setMember_self]
      exact ⟨node0, hreach, hgoes.lost hslot hne⟩
    · split at hs
      · cases hs
      · split at hs
        · rename_i hresp
          cases hs
          rw [setMember_self]
          exact .iterated hreach (hgoes.stop hslot hne hresp)
        · rename_i hresp
          cases hs
          rw [setMember_self]
          exact ⟨node0, hreach, hgoes.next hslot hne hresp⟩
  · cases hs

theorem runsAlone_step (h : RunsAlone start (c.member id)) (ha : NotVoting id a) (hs : clusterStep c a = some c') :
    RunsAlone start (c'.member id) := by
  by_cases hactor : id = a.actor
  swap
  · rw [step_member hs hactor]
    exact h
  subst hactor
  cases a with
  | electionStart id now clock => exact runsAlone_election h hs
  | sendVoteRequest id => exact runsAlone_send h hs
  | grantVote voter req =>
    simp only [clusterStep, grantVoteStep] at hs
    split at hs
    · cases hs
      exact h
    · cases hs
  | voteResponse id resp clock => exact runsAlone_response h hs
  | voterUpdate voter term demote votedFor timeout => exact absurd rfl ha
  | heartbeat id env =>
    simp only [clusterStep] at hs
    split at hs
    · rename_i hunlocked
      obtain ⟨node, hnode, rfl⟩ := Option.map_eq_some_iff.1 hs
      change RunsAlone start ((c.setMember id _).member id)
      rw [setMember_self]
      have hstep : nodeMachine.step (c.member id).node (.heartbeat env) = some (node, .ok) := by
        simp [nodeMachine, hnode]
      exact h.calls hunlocked hstep trivial
    · cases hs
  | appendLog id env data =>
    simp only [clusterStep] at hs
    split at hs
    · rename_i hunlocked
      cases hs
      change RunsAlone start ((c.setMember id _).member id)
      rw [setMember_self]
      have hstep : nodeMachine.step (c.member id).node (.appendLog env data) =
          some (xdeviceRaftAppendLog env (c.member id).node data) := rfl
      exact h.calls hunlocked hstep trivial
    · cases hs

end

/-! ## Alone in a cluster -/

/-- The node of `id`, in a cluster none of whose other nodes has seen a term. -/
structure AloneIn (id : CString) (node : RaftNode) (c : RaftCluster) : Prop where
  own : node.nodeId = id
  behind : ∀ peer ∈ node.clusterNodes, peer ≠ id → (c.member peer).node.currentTerm = 0

section
variable {id peer : CString} {node node' : RaftNode} {c c' : RaftCluster} {n n' slot : Nat}

/-- A step on the way to somewhere. -/
theorem reaches_step {a : ClusterStep} {c'' : RaftCluster} (hs : clusterStep c a = some c') (ha : NotVoting id a)
    (h : clusterMachine.Reaches (NotVoting id) c' c'') : clusterMachine.Reaches (NotVoting id) c c'' := by
  refine .step (b := ()) ?_ ha h
  change (clusterStep c a).map (fun c => (c, ())) = some (c', ())
  rw [hs, Option.map_some]

/-- From `c` to `c'` at most `id` has changed, and has got there by steps of the cluster. -/
structure Leads (id : CString) (c c' : RaftCluster) : Prop where
  reaches : clusterMachine.Reaches (NotVoting id) c c'
  others : ∀ v ≠ id, c'.member v = c.member v

theorem Leads.trans {c'' : RaftCluster} (h : Leads id c c') (h' : Leads id c' c'') : Leads id c c'' :=
  ⟨h.reaches.trans h'.reaches, fun v hv => (h'.others v hv).trans (h.others v hv)⟩

theorem Leads.one {a : ClusterStep} (hs : clusterStep c a = some c') (ha : NotVoting id a)
    (hsame : ∀ v ≠ id, c'.member v = c.member v) : Leads id c c' :=
  ⟨reaches_step hs ha (.refl c'), hsame⟩

/-- A peer grants the request that it is asked, if its answer says so. -/
theorem grants (halone : AloneIn id node c) (hslot : node.clusterNodes[slot]? = some peer) (hne : peer ≠ node.nodeId)
    (granted : Bool) : ∃ c', Leads id (asked c id node n slot peer) c' ∧
      c'.member id = ⟨node, .awaiting n slot peer (voteRequest node)⟩ ∧
      (granted = true → (peer, voteRequest node) ∈ c'.granted) := by
  cases granted with
  | false => exact ⟨_, ⟨.refl _, fun _ _ => rfl⟩, asked_self, nofun⟩
  | true =>
    let c1 := asked c id node n slot peer
    let c2 : RaftCluster := { c1 with
      granted := (peer, voteRequest node) :: c1.granted, votes := (peer, node.currentTerm, node.nodeId) :: c1.votes }
    have hgrant : clusterStep c1 (.grantVote peer (voteRequest node)) = some c2 := by
      refine if_pos ⟨List.mem_cons_self, ?_⟩
      have hpeer : peer ≠ id := halone.own ▸ hne
      rw [asked_same.member peer hpeer, halone.behind peer (List.mem_of_getElem? hslot) hpeer]
      exact Nat.zero_le _
    exact ⟨c2, .one hgrant trivial fun _ _ => rfl, asked_self, fun _ => List.mem_cons_self⟩

/-- A peer is asked and its answer comes back. -/
theorem hears_answer (halone : AloneIn id node c) (h : c.member id = ⟨node, .polling n slot⟩)
    (hslot : node.clusterNodes[slot]? = some peer) (hne : peer ≠ node.nodeId) {resp : VoteResponse} {clock : Clock}
    {more : Bool} (hresp : handleVoteResponse node clock n resp = (node', n', more)) :
    ∃ c', Leads id c c' ∧
      c'.member id = if more then ⟨node', .polling n' (slot + 1)⟩ else ⟨finishElection node' n', .idle⟩ := by
  have hasked : Leads id c (asked c id node n slot peer) := .one (send_peer h hslot hne) trivial asked_same.member
  obtain ⟨c1, hgrant, hmember, hgranted⟩ := grants (n := n) halone hslot hne resp.voteGranted
  have hanswered : ∀ m, clusterStep c1 (.voteResponse id (some resp) clock) = some (c1.setMember id m) →
      Leads id c (c1.setMember id m) := by
    intro m hs
    exact (hasked.trans hgrant).trans (.one hs trivial fun v hv => setMember_other c1 hv m)
  have hback : ¬ (resp.voteGranted = true ∧ (peer, voteRequest node) ∉ c1.granted) := fun hlost => hlost.2 (hgranted hlost.1)
  refine ⟨c1.setMember id (if more then ⟨node', .polling n' (slot + 1)⟩ else ⟨finishElection node' n', .idle⟩),
    hanswered _ ?_, setMember_self c1 id _⟩
  simp only [clusterStep, voteResponseStep, hmember, if_neg hback, hresp]
  cases more with
  | true => rfl
  | false => rfl

/-- The rest of the loop, and what follows it. -/
theorem polls (env : ElectionEnv) (halone : AloneIn id node c) (h : c.member id = ⟨node, .polling n slot⟩) :
    ∃ c', Leads id c c' ∧
      c'.member id = ⟨endElection (pollFrom env node n slot (node.clusterNodes.drop slot)), .idle⟩ := by
  induction hk : node.clusterNodes.length - slot generalizing c n slot with
  | zero =>
    have hle : node.clusterNodes.length ≤ slot := by omega
    rw [List.drop_eq_nil_of_le hle]
    exact ⟨_, .one (send_past h (List.getElem?_eq_none hle)) trivial fun v hv => setMember_other c hv _, setMember_self _ _ _⟩
  | succ k ih =>
    have hlt : slot < node.clusterNodes.length := by omega
    obtain ⟨peer, hslot⟩ : ∃ peer, node.clusterNodes[slot]? = some peer := ⟨_, List.getElem?_eq_getElem hlt⟩
    -- the loop goes on behind the slot
    have hrest : ∀ {c1 : RaftCluster} {m : Nat}, Leads id c c1 → c1.member id = ⟨node, .polling m (slot + 1)⟩ →
        pollFrom env node n slot (node.clusterNodes.drop slot) =
          pollFrom env node m (slot + 1) (node.clusterNodes.drop (slot + 1)) →
        ∃ c', Leads id c c' ∧
          c'.member id = ⟨endElection (pollFrom env node n slot (node.clusterNodes.drop slot)), .idle⟩ := by
      intro c1 m hleads hm he
      have halone1 : AloneIn id node c1 := by
        refine ⟨halone.own, fun v hv hne => ?_⟩
        rw [hleads.others v hne]
        exact halone.behind v hv hne
      obtain ⟨c2, hleads', hm'⟩ := ih halone1 hm (by omega)
      rw [he]
      exact ⟨c2, hleads.trans hleads', hm'⟩
    by_cases hown : peer = node.nodeId
    · refine hrest (.one (send_own h (hown ▸ hslot)) trivial fun v hv => setMember_other c hv _) (setMember_self _ _ _) ?_
      rw [drop_slot hslot, pollFrom_own hown]
    · cases hanswer : env.sendVoteRequest slot (voteRequest node) with
      | none =>
        have hasked : Leads id c (asked c id node n slot peer) := .one (send_peer h hslot hown) trivial asked_same.member
        have hlost := hasked.trans (.one (answer_lost asked_self ⟨0, 0⟩) trivial fun v hv => setMember_other _ hv _)
        refine hrest hlost (setMember_self _ _ _) ?_
        rw [drop_slot hslot, pollFrom_lost hown hanswer]
      | some resp =>
        obtain ⟨⟨node', n', more⟩, hresp⟩ : ∃ r, handleVoteResponse node (env.stepClock slot) n resp = r := ⟨_, rfl⟩
        obtain ⟨c1, hleads, hm⟩ := hears_answer halone h hslot hown hresp
        have hpoll := pollFrom_answered hown hanswer hresp (node.clusterNodes.drop (slot + 1))
        rw [← drop_slot hslot] at hpoll
        cases more with
        | true =>
          obtain rfl := handleVoteResponse_more hresp
          exact hrest hleads hm hpoll
        | false =>
          rw [hpoll]
          exact ⟨c1, hleads, hm⟩

theorem AloneIn.leads (h : AloneIn id node c) (hleads : Leads id c c') (hown : node'.nodeId = node.nodeId)
    (hslots : node'.clusterNodes = node.clusterNodes) : AloneIn id node' c' := by
  refine ⟨hown.trans h.own, fun v hv hne => ?_⟩
  rw [hslots] at hv
  rw [hleads.others v hne]
  exact h.behind v hv hne

theorem finishElection_frame (node : RaftNode) (votes : Nat) :
    (finishElection node votes).nodeId = node.nodeId ∧ (finishElection node votes).clusterNodes = node.clusterNodes := by
  unfold finishElection
  split
  · exact ⟨rfl, rfl⟩
  · exact ⟨rfl, rfl⟩

theorem electionIteration_frame (env : ElectionEnv) (node : RaftNode) :
    (electionIteration env node).nodeId = node.nodeId ∧ (electionIteration env node).clusterNodes = node.clusterNodes := by
  rcases electionIteration_cases env node with he | ⟨-, he | ⟨term, clock, he⟩⟩
  · rw [he]
    exact ⟨rfl, rfl⟩
  · rw [he]
    exact finishElection_frame _ _
  · rw [he]
    exact ⟨rfl, rfl⟩

/-- An iteration, with its peers granting what its answers say they grant. -/
theorem iterates (env : ElectionEnv) (halone : AloneIn id node c) (h : c.member id = ⟨node, .idle⟩) :
    ∃ c', Leads id c c' ∧ c'.member id = ⟨electionIteration env node, .idle⟩ := by
  by_cases hdue : electionDue node env.now = true
  · let node1 := startElection node env.startClock
    have hstart : clusterStep c (.electionStart id env.now env.startClock) =
        some { c.setMember id ⟨node1, .polling 1 0⟩ with votes := (id, node1.currentTerm, node1.votedFor) :: c.votes } := by
      simp only [clusterStep, electionStartStep, h, hdue, ClusterMember.unlocked]
      rfl
    have hstarted := Leads.one hstart trivial fun v hv => setMember_other c hv _
    have halone1 : AloneIn id node1 _ := halone.leads hstarted rfl rfl
    obtain ⟨c', hleads, hm⟩ := polls env halone1 (setMember_self c id _)
    rw [electionIteration_due hdue]
    exact ⟨c', hstarted.trans hleads, hm⟩
  · have hsame : electionIteration env node = node := by rw [electionIteration, if_neg hdue]
    rw [hsame]
    exact ⟨c, ⟨.refl c, fun _ _ => rfl⟩, h⟩

/-- The member is outside an iteration, with the cluster for itself. -/
structure IdleAlone (id : CString) (node : RaftNode) (c : RaftCluster) : Prop where
  member : c.member id = ⟨node, .idle⟩
  alone : AloneIn id node c

/-- A step that the mutex makes one step in the cluster too. -/
theorem IdleAlone.calls {a : ClusterStep} (h : IdleAlone id node c) (hs : clusterStep c a = some (c.setMember id ⟨node', .idle⟩))
    (ha : NotVoting id a) (hrole : KeepsRole node node') :
    ∃ c', clusterMachine.Reaches (NotVoting id) c c' ∧ IdleAlone id node' c' := by
  have hleads : Leads id c (c.setMember id ⟨node', .idle⟩) := .one hs ha fun v hv => setMember_other c hv _
  exact ⟨_, hleads.reaches, setMember_self _ _ _, h.alone.leads hleads hrole.own hrole.slots⟩

/-- What the node does alone, it can do in the cluster. -/
theorem step_in_cluster {act : RaftStep} {code : XdeviceError} (hact : KeepsCluster act) (h : IdleAlone id node c)
    (hs : nodeMachine.step node act = some (node', code)) :
    ∃ c', clusterMachine.Reaches (NotVoting id) c c' ∧ IdleAlone id node' c' := by
  cases act with
  | election env =>
    cases hs
    obtain ⟨c', hleads, hm⟩ := iterates env h.alone h.member
    obtain ⟨hown, hslots⟩ := electionIteration_frame env node
    exact ⟨c', hleads.reaches, hm, h.alone.leads hleads hown hslots⟩
  | heartbeat env =>
    obtain ⟨node1, hnode, he⟩ := Option.map_eq_some_iff.1 hs
    cases he
    have hstep : clusterStep c (.heartbeat id env) = some (c.setMember id ⟨node', .idle⟩) := by
      simp only [clusterStep, h.member, hnode, ClusterMember.unlocked]
      rfl
    exact h.calls hstep trivial (keepsRole_heartbeat hnode)
  | appendLog env data =>
    have he : xdeviceRaftAppendLog env node data = (node', code) := Option.some.inj hs
    have hstep : clusterStep c (.appendLog id env data) = some (c.setMember id ⟨node', .idle⟩) := by
      simp only [clusterStep, h.member, he, ClusterMember.unlocked]
      rfl
    have hrole := keepsRole_appendLog env node data
    rw [he] at hrole
    exact h.calls hstep trivial hrole
  | addNode newNode => exact hact.elim

end

/-! ## Main theorem -/

/-- Outside its iterations, a node of a cluster is in the states that it can come to alone, whatever
the other nodes do; and each of these it can come to in the cluster. -/
theorem cluster_node_alone_iff {ids : List CString} (hlen : ids.length ≤ xdeviceMaxNodes)
    (hids : ∀ id ∈ ids, id.length < xdeviceMaxNodeIdLen) {c0 : RaftCluster} (h0 : Started ids c0) {id : CString}
    (hid : id ∈ ids) (node : RaftNode) :
    (∃ c, clusterMachine.Reaches (NotVoting id) c0 c ∧ c.member id = ⟨node, .idle⟩) ↔
      nodeMachine.Reaches KeepsCluster (c0.member id).node node := by
  have hok := clusterOk_started hlen hids h0
  obtain ⟨clock, created, hcreate, hm⟩ := h0.nodes id hid
  have hstart : c0.member id = ⟨(c0.member id).node, .idle⟩ := by rw [hm]
  constructor
  · rintro ⟨c, hreach, hidle⟩
    have hruns : RunsAlone (c0.member id).node (c.member id) := by
      refine hreach.inv (I := fun c => RunsAlone (c0.member id).node (c.member id)) ?_ ?_
      · intro c1 a c2 out h1 ha hs
        obtain ⟨c3, hstep, he⟩ := Option.map_eq_some_iff.1 hs
        cases he
        exact runsAlone_step h1 ha hstep
      · rw [hstart]
        exact ⟨_, .refl _, rfl⟩
    rw [hidle] at hruns
    obtain ⟨node0, hr, he⟩ := hruns
    cases he
    exact hr
  · intro hreach
    have halone : AloneIn id (c0.member id).node c0 := by
      have hmember := hok.members id hid
      refine ⟨hmember.own, fun peer hpeer _ => ?_⟩
      rw [hmember.slots] at hpeer
      obtain ⟨clock', node', hcreate', hm'⟩ := h0.nodes peer hpeer
      rw [hm']
      exact (created_member hlen (hids peer hpeer) hcreate').2.2.2
    obtain ⟨c, hr, hidle⟩ := hreach.lift (fun _ _ _ _ _ hact h hs => step_in_cluster hact h hs) ⟨hstart, halone⟩
    exact ⟨c, hr, hidle.member⟩

/-- "A" has been elected as in `electA`. -/
theorem electA_alone : nodeMachine.Reaches KeepsCluster (threeNodes.member (cstr "A")).node (electedA.1.member (cstr "A")).node := by
  have hrun : clusterMachine.run threeNodes electA = some (electedA.1, electedA.2) := (Option.some_get electA_runs).symm
  have hvoting : ∀ a ∈ electA, NotVoting (cstr "A") a := by simp [electA, NotVoting]
  have hidle : (electedA.1.member (cstr "A")).phase = .idle := by decide
  refine (cluster_node_alone_iff (by decide) (by decide) threeNodes_started (by decide) _).1
    ⟨electedA.1, ⟨electA, electedA.2, hvoting, hrun⟩, ?_⟩
  rw [← hidle]

end XDevice
