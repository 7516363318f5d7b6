import XDevice.Raft.Trace
import Mathlib.Data.List.Chain
/-!
# Roles and terms over a run

The two threads of a node share role, term and vote, and each may change them in the
middle of its loop. What holds of the events of a run follows from what every change does:
the role is lost only to a higher term, the vote is set only with a higher term, and
leading a term takes its election.
-/
open Lib

namespace XDevice

/-! ## The discipline -/

/-- The node leads this term. -/
def RaftEvent.Leads (e : RaftEvent) (term : Nat) : Prop := e.state = .leader ∧ e.term = term

/-- More than half of the cluster was counted in an election of this term. -/
def RaftEvent.WonElection (e : RaftEvent) (term : Nat) : Prop :=
  ∃ votes clusterSize, e.act = .tally term votes clusterSize ∧ clusterSize / 2 < votes

/-- What the events of a run of the node `own` are like, the oldest first. -/
structure TermDiscipline (own : CString) (events : List RaftEvent) : Prop where
  terms : events.Pairwise fun e e' => e.term ≤ e'.term
  votes : ∀ e ∈ events, e.votedFor = [] ∨ e.votedFor = own
  /-- From one event to the next, a vote is set only together with a higher term. -/
  voteSet : events.IsChain fun e e' =>
    e'.act = .selfVote ∨ e'.votedFor ≠ [] ∧ e'.votedFor ≠ e.votedFor → e.term < e'.term
  oneVote : events.Pairwise fun e e' => e.act = .selfVote → e'.act = .selfVote → e.term ≠ e'.term
  elected : ∀ before e after, events = before ++ e :: after → e.state = .leader → ∃ e' ∈ before, e'.WonElection e.term
  /-- Leadership of a term that was lost is not regained. -/
  lost : ∀ e₁ e₂ e₃ term, [e₁, e₂, e₃].Sublist events → e₁.Leads term → ¬ e₂.Leads term → ¬ e₃.Leads term
  sent : ∀ e ∈ events, ∀ term, e.act.sent = some term → term = e.term
  heartbeats : ∀ e ∈ events, ∀ req, e.act = .appendRequest req → e.state = .leader
  /-- No message is older than a response that was dealt with before it. -/
  answered : events.Pairwise fun e e' => ∀ term term', e.act.received = some term → e'.act.sent = some term' → term ≤ term'

/-! ## Invariant -/

/-- What an event is to all the later ones. -/
structure Precedes (e e' : RaftEvent) : Prop where
  term : e.term ≤ e'.term
  lead : e.state = .leader → e'.term = e.term → e'.state = .leader
  vote : e'.act = .selfVote → e.term < e'.term
  answer : ∀ term term', e.act.received = some term → e'.act.sent = some term' → term ≤ term'

/-- What the events so far are to the node as it is now. -/
structure NodeTrace (own : CString) (node : RaftNode) (events : List RaftEvent) : Prop where
  nodeId : node.nodeId = own
  vote : node.votedFor = [] ∨ node.votedFor = own
  order : events.Pairwise Precedes
  votes : ∀ e ∈ events, e.votedFor = [] ∨ e.votedFor = own
  voteSet : events.IsChain fun e e' =>
    e'.act = .selfVote ∨ e'.votedFor ≠ [] ∧ e'.votedFor ≠ e.votedFor → e.term < e'.term
  elected : ∀ before e after, events = before ++ e :: after → e.state = .leader → ∃ e' ∈ before, e'.WonElection e.term
  sent : ∀ e ∈ events, ∀ term, e.act.sent = some term → term = e.term
  heartbeats : ∀ e ∈ events, ∀ req, e.act = .appendRequest req → e.state = .leader
  term : ∀ e ∈ events, e.term ≤ node.currentTerm
  lead : ∀ e ∈ events, e.state = .leader → e.term = node.currentTerm → node.state = .leader
  answer : ∀ e ∈ events, ∀ term, e.act.received = some term → term ≤ node.currentTerm
  won : node.state = .leader → ∃ e ∈ events, e.WonElection node.currentTerm
  last : ∀ e ∈ events.getLast?, node.votedFor ≠ [] → node.votedFor ≠ e.votedFor → e.term < node.currentTerm

theorem NodeTrace.discipline {own : CString} {node : RaftNode} {events : List RaftEvent} (h : NodeTrace own node events) :
    TermDiscipline own events where
  terms := h.order.imp Precedes.term
  votes := h.votes
  voteSet := h.voteSet
  oneVote := h.order.imp fun hp _ hvote => Nat.ne_of_lt (hp.vote hvote)
  elected := h.elected
  lost := by
    rintro e₁ e₂ e₃ term hsub ⟨hlead, rfl⟩ hlost ⟨-, hterm⟩
    have horder := h.order.sublist hsub
    simp only [List.pairwise_cons, List.mem_cons, List.not_mem_nil, or_false, forall_eq_or_imp, forall_eq] at horder
    obtain ⟨⟨h12, -⟩, h23, -⟩ := horder
    have hsame : e₂.term = e₁.term := Nat.le_antisymm (hterm ▸ h23.term) h12.term
    exact hlost ⟨h12.lead hlead hsame, hsame⟩
  sent := h.sent
  heartbeats := h.heartbeats
  answered := h.order.imp Precedes.answer

/-! ## Events and changes -/

section
variable {own : CString} {node node' : RaftNode} {events : List RaftEvent} {act : RaftAct}

/-- What may happen at a node as it is now. -/
structure Allowed (node : RaftNode) (events : List RaftEvent) (act : RaftAct) : Prop where
  vote : act = .selfVote → ∀ e ∈ events, e.term < node.currentTerm
  sent : ∀ term, act.sent = some term → term = node.currentTerm
  heartbeat : ∀ req, act = .appendRequest req → node.state = .leader
  answer : ∀ term, act.received = some term → term ≤ node.currentTerm

theorem Allowed.stepEnd : Allowed node events .stepEnd := ⟨nofun, nofun, nofun, nofun⟩

/-- An event of a longer history is the new one, or has its place among the others. -/
theorem split_concat {before after : List RaftEvent} {e new : RaftEvent} (h : events ++ [new] = before ++ e :: after) :
    before = events ∧ e = new ∨ ∃ rest, events = before ++ e :: rest := by
  rcases List.eq_nil_or_concat after with rfl | ⟨rest, last, rfl⟩
  · obtain ⟨hbefore, hnew⟩ := List.append_inj' h rfl
    exact .inl ⟨hbefore.symm, (List.cons.inj hnew).1.symm⟩
  · rw [List.concat_eq_append, ← List.cons_append, ← List.append_assoc] at h
    exact .inr ⟨rest, (List.append_inj' h rfl).1⟩

theorem NodeTrace.emit (h : NodeTrace own node events) (hact : Allowed node events act) :
    NodeTrace own node (events ++ [node.event act]) where
  nodeId := h.nodeId
  vote := h.vote
  order := by
    refine List.pairwise_append.2 ⟨h.order, List.pairwise_singleton .., fun e he e' he' => ?_⟩
    rw [List.mem_singleton.1 he']
    refine ⟨h.term e he, fun hl ht => h.lead e he hl ht.symm, fun hv => hact.vote hv e he, fun term term' hr hs => ?_⟩
    rw [hact.sent term' hs]
    exact h.answer e he term hr
  votes := List.forall_mem_append.2 ⟨h.votes, List.forall_mem_singleton.2 h.vote⟩
  voteSet := by
    refine List.isChain_append.2 ⟨h.voteSet, List.isChain_singleton _, ?_⟩
    rintro e he e' he' (hv | ⟨hne, hch⟩) <;> cases he'
    · exact hact.vote hv e (List.mem_of_getLast? he)
    · exact h.last e he hne hch
  elected := by
    intro before e after he hl
    have hnew : node.state = .leader → ∃ e' ∈ events, e'.WonElection node.currentTerm := h.won
    rcases split_concat he with ⟨rfl, rfl⟩ | ⟨rest, rfl⟩
    · exact hnew hl
    · exact h.elected before e rest rfl hl
  sent := List.forall_mem_append.2 ⟨h.sent, List.forall_mem_singleton.2 hact.sent⟩
  heartbeats := List.forall_mem_append.2 ⟨h.heartbeats, List.forall_mem_singleton.2 hact.heartbeat⟩
  term := List.forall_mem_append.2 ⟨h.term, List.forall_mem_singleton.2 (Nat.le_refl _)⟩
  lead := List.forall_mem_append.2 ⟨h.lead, List.forall_mem_singleton.2 fun hl _ => hl⟩
  answer := List.forall_mem_append.2 ⟨h.answer, List.forall_mem_singleton.2 hact.answer⟩
  won hl := by
    obtain ⟨e, he, hwon⟩ := h.won hl
    exact ⟨e, List.mem_append_left _ he, hwon⟩
  last e he hne hch := by
    rw [List.getLast?_concat] at he
    cases he
    exact absurd rfl hch

/-- The role, the term and the vote stay. -/
structure SameRole (node node' : RaftNode) : Prop where
  nodeId : node'.nodeId = node.nodeId
  state : node'.state = node.state
  term : node'.currentTerm = node.currentTerm
  votedFor : node'.votedFor = node.votedFor

theorem NodeTrace.same (h : NodeTrace own node events) (hs : SameRole node node') : NodeTrace own node' events where
  nodeId := hs.nodeId.trans h.nodeId
  vote := by
    rw [hs.votedFor]
    exact h.vote
  order := h.order
  votes := h.votes
  voteSet := h.voteSet
  elected := h.elected
  sent := h.sent
  heartbeats := h.heartbeats
  term := by
    rw [hs.term]
    exact h.term
  lead := by
    rw [hs.term, hs.state]
    exact h.lead
  answer := by
    rw [hs.term]
    exact h.answer
  won := by
    rw [hs.term, hs.state]
    exact h.won
  last := by
    rw [hs.term, hs.votedFor]
    exact h.last

/-- To a higher term, without its leadership. -/
theorem NodeTrace.higher (h : NodeTrace own node events) (hid : node'.nodeId = node.nodeId)
    (hterm : node.currentTerm < node'.currentTerm) (hstate : node'.state ≠ .leader)
    (hvote : node'.votedFor = [] ∨ node'.votedFor = own) : NodeTrace own node' events where
  nodeId := hid.trans h.nodeId
  vote := hvote
  order := h.order
  votes := h.votes
  voteSet := h.voteSet
  elected := h.elected
  sent := h.sent
  heartbeats := h.heartbeats
  term e he := Nat.le_of_lt (Nat.lt_of_le_of_lt (h.term e he) hterm)
  lead e he _ ht := absurd ht (Nat.ne_of_lt (Nat.lt_of_le_of_lt (h.term e he) hterm))
  answer e he term hr := Nat.le_of_lt (Nat.lt_of_le_of_lt (h.answer e he term hr) hterm)
  won hl := absurd hl hstate
  last e he _ _ := Nat.lt_of_le_of_lt (h.term e (List.mem_of_getLast? he)) hterm

/-- To the leadership of the same term, after its election. -/
theorem NodeTrace.lead_won (h : NodeTrace own node events) (hid : node'.nodeId = node.nodeId)
    (hterm : node'.currentTerm = node.currentTerm) (hstate : node'.state = .leader) (hvote : node'.votedFor = node.votedFor)
    (hwon : ∃ e ∈ events, e.WonElection node.currentTerm) : NodeTrace own node' events where
  nodeId := hid.trans h.nodeId
  vote := by
    rw [hvote]
    exact h.vote
  order := h.order
  votes := h.votes
  voteSet := h.voteSet
  elected := h.elected
  sent := h.sent
  heartbeats := h.heartbeats
  term := by
    rw [hterm]
    exact h.term
  lead _ _ _ _ := hstate
  answer := by
    rw [hterm]
    exact h.answer
  won _ := by
    rw [hterm]
    exact hwon
  last := by
    rw [hterm, hvote]
    exact h.last

/-! ## Election -/

theorem NodeTrace.stepDown (h : NodeTrace own node events) {term : Nat} (hterm : node.currentTerm < term) (clock : Clock) :
    NodeTrace own (stepDown node term clock) events :=
  h.higher rfl hterm (by simp [XDevice.stepDown, resetElectionTimer]) (.inl rfl)

theorem Allowed.selfVote (h : ∀ e ∈ events, e.term < node.currentTerm) : Allowed node events .selfVote where
  vote _ := h
  sent := nofun
  heartbeat := nofun
  answer := nofun

theorem NodeTrace.startElection (h : NodeTrace own node events) (hterm : node.currentTerm < 2 ^ 64 - 1) (clock : Clock) :
    NodeTrace own (startElection node clock) (events ++ [(startElection node clock).event .selfVote]) := by
  have hnext : (XDevice.startElection node clock).currentTerm = node.currentTerm + 1 := add64_eq (by omega)
  have hcandidate : NodeTrace own (XDevice.startElection node clock) events := by
    have hvote : (XDevice.startElection node clock).votedFor = own := h.nodeId
    refine h.higher rfl ?_ ?_ (.inr hvote)
    · omega
    · simp [XDevice.startElection, resetElectionTimer]
  apply hcandidate.emit
  apply Allowed.selfVote
  intro e he
  have := h.term e he
  omega

theorem Allowed.voteRequest : Allowed node events (.voteRequest (voteRequest node)) where
  vote := nofun
  sent _ hs := (Option.some.inj hs).symm
  heartbeat := nofun
  answer := nofun

theorem Allowed.voteResponse {resp : VoteResponse} (hterm : resp.term ≤ node.currentTerm) :
    Allowed node events (.voteResponse resp) where
  vote := nofun
  sent := nofun
  heartbeat := nofun
  answer _ hr := Option.some.inj hr ▸ hterm

theorem Allowed.tally (term votes clusterSize : Nat) : Allowed node events (.tally term votes clusterSize) :=
  ⟨nofun, nofun, nofun, nofun⟩

/-- Each answer is dealt with before the next request goes out. -/
theorem NodeTrace.poll (env : ElectionEnv) (votes i : Nat) (ids : List CString) (h : NodeTrace own node events) :
    NodeTrace own (pollTrace env node votes i ids).1.1 (events ++ (pollTrace env node votes i ids).2) := by
  induction ids generalizing votes i events with
  | nil =>
    unfold pollTrace
    rw [List.append_nil]
    exact h
  | cons id ids ih =>
    unfold pollTrace
    split
    · exact ih _ _ h
    -- the request and its answer go before the events of the rest of the loop
    · have hreq := h.emit Allowed.voteRequest
      dsimp only
      cases env.sendVoteRequest i (XDevice.voteRequest node) with
      | none =>
        have hrest := ih votes (i + 1) hreq
        rwa [List.append_assoc] at hrest
      | some resp =>
        unfold handleVoteResponse
        dsimp only
        split
        · rename_i hresp
          split at hresp
          · rename_i hterm
            cases hresp
            have hstop := (hreq.stepDown hterm (env.stepClock i)).emit (Allowed.voteResponse (Nat.le_refl resp.term))
            rwa [List.append_assoc] at hstop
          · cases hresp
        · rename_i hresp
          split at hresp
          · cases hresp
          · rename_i hterm
            cases hresp
            have hrest := ih (if resp.voteGranted then votes + 1 else votes) (i + 1)
              (hreq.emit (Allowed.voteResponse (Nat.le_of_not_lt hterm)))
            rwa [List.append_assoc, List.append_assoc] at hrest

/-- Only the candidate that began the election can win it. -/
theorem finishElection_cases (env : ElectionEnv) {candidate node : RaftNode} {votes i counted : Nat} {ids : List CString}
    (hpoll : pollFrom env candidate votes i ids = (node, counted)) :
    finishElection node counted = node ∨ node = candidate ∧ node.clusterSize / 2 < counted ∧
      (finishElection node counted).nodeId = node.nodeId ∧ (finishElection node counted).state = .leader ∧
      (finishElection node counted).currentTerm = node.currentTerm ∧
      (finishElection node counted).votedFor = node.votedFor := by
  unfold finishElection
  split
  · rename_i hwon
    refine .inr ⟨?_, hwon.2, rfl, rfl, rfl, rfl⟩
    -- a node that stepped down is no candidate any more
    rcases pollFrom_cases env candidate votes i ids with he | ⟨j, resp, -, -, he⟩
    · rw [hpoll] at he
      exact congrArg Prod.fst he
    · rw [hpoll] at he
      cases he
      cases hwon.1
  · exact .inl rfl

theorem NodeTrace.election (h : NodeTrace own node events) (hterm : node.currentTerm < 2 ^ 64 - 1) (env : ElectionEnv) :
    NodeTrace own (electionTrace env node).1 (events ++ (electionTrace env node).2) := by
  unfold electionTrace
  split
  · have hpoll := (h.startElection hterm env.startClock).poll env 1 0 node.clusterNodes
    have hfst := pollTrace_fst env (XDevice.startElection node env.startClock) 1 0 node.clusterNodes
    dsimp only
    generalize pollTrace env (XDevice.startElection node env.startClock) 1 0 node.clusterNodes = polled at hpoll hfst ⊢
    obtain ⟨⟨node', votes⟩, new⟩ := polled
    have htally := hpoll.emit (Allowed.tally (XDevice.startElection node env.startClock).currentTerm votes node'.clusterSize)
    simp only [List.append_assoc, List.cons_append, List.nil_append] at htally ⊢
    rcases finishElection_cases env hfst.symm with he | ⟨rfl, hmajority, hid, hstate, hsame, hvote⟩
    · rw [he]
      exact htally
    · have hwon : (RaftNode.event (XDevice.startElection node env.startClock) (.tally
          (XDevice.startElection node env.startClock).currentTerm votes
          (XDevice.startElection node env.startClock).clusterSize)).WonElection
          (XDevice.startElection node env.startClock).currentTerm := ⟨votes, _, rfl, hmajority⟩
      refine htally.lead_won hid hsame hstate hvote ⟨_, List.mem_append_right _ (List.mem_cons_of_mem _ ?_), hwon⟩
      exact List.mem_append_right _ List.mem_cons_self
  · rw [List.append_nil]
    exact h

/-! ## Heartbeat -/

theorem sameRole_handleAppendResponse (node : RaftNode) (i : Nat) (req : AppendRequest) (success : Bool) :
    SameRole node (handleAppendResponse node i req success) := by
  obtain ⟨nextIndex, matchIndex, he⟩ := handleAppendResponse_changes node i req success
  rw [he]
  exact ⟨rfl, rfl, rfl, rfl⟩

theorem Allowed.appendRequest (hl : node.state = .leader) (outside i : Nat) :
    Allowed node events (.appendRequest (appendRequestAt outside node i)) where
  vote := nofun
  sent _ hs := (Option.some.inj hs).symm
  heartbeat _ _ := hl
  answer := nofun

theorem Allowed.appendResponse {resp : AppendResponse} (hterm : resp.term ≤ node.currentTerm) :
    Allowed node events (.appendResponse resp) where
  vote := nofun
  sent := nofun
  heartbeat := nofun
  answer _ hr := Option.some.inj hr ▸ hterm

theorem NodeTrace.heartbeatFrom (outside : Nat → Nat) (env : HeartbeatEnv) {i : Nat} {ids : List CString}
    (h : NodeTrace own node events) (hl : node.state = .leader) :
    NodeTrace own (heartbeatTraceFrom outside env node i ids).1
      (events ++ (heartbeatTraceFrom outside env node i ids).2) := by
  induction ids generalizing node i events with
  | nil =>
    unfold heartbeatTraceFrom
    rw [List.append_nil]
    exact h
  | cons id ids ih =>
    unfold heartbeatTraceFrom
    split
    · exact ih h hl
    · have hreq := h.emit (Allowed.appendRequest hl (outside i) i)
      dsimp only
      cases env.sendAppendEntries i (appendRequestAt (outside i) node i) with
      | none =>
        have hrest := ih (i := i + 1) hreq hl
        rwa [List.append_assoc] at hrest
      | some resp =>
        dsimp only
        split
        · rename_i hterm
          have hstop := (hreq.stepDown hterm (env.stepClock i)).emit (Allowed.appendResponse (Nat.le_refl resp.term))
          rwa [List.append_assoc] at hstop
        · rename_i hterm
          have hsame := sameRole_handleAppendResponse node i (appendRequestAt (outside i) node i) resp.success
          have hle : resp.term ≤ (handleAppendResponse node i (appendRequestAt (outside i) node i) resp.success).currentTerm :=
            hsame.term ▸ Nat.le_of_not_lt hterm
          have hrest := ih (i := i + 1) ((hreq.same hsame).emit (Allowed.appendResponse hle)) (hsame.state.trans hl)
          rwa [List.append_assoc, List.append_assoc] at hrest

theorem NodeTrace.heartbeat (outside : Nat → Nat) (env : HeartbeatEnv) (h : NodeTrace own node events) :
    NodeTrace own (heartbeatTrace outside env node).1 (events ++ (heartbeatTrace outside env node).2) := by
  unfold heartbeatTrace
  split
  · rename_i hdue
    exact (h.heartbeatFrom outside env hdue.1).same ⟨rfl, rfl, rfl, rfl⟩
  · rw [List.append_nil]
    exact h

/-! ## Callers -/

theorem sameRole_appendLog (env : AppendEnv) (node : RaftNode) (data : Bytes) :
    SameRole node (xdeviceRaftAppendLog env node data).1 := by
  obtain ⟨logEntries, logCapacity, he⟩ := appendLog_changes env node data
  rw [he]
  exact ⟨rfl, rfl, rfl, rfl⟩

theorem sameRole_addNode (node : RaftNode) (newNode : CString) : SameRole node (xdeviceRaftAddNodeToCluster node newNode).1 := by
  obtain ⟨clusterNodes, he⟩ := addNode_changes node newNode
  rw [he]
  exact ⟨rfl, rfl, rfl, rfl⟩

/-! ## Main theorem -/

/-- Every step is one change, or changes each followed by its event. -/
theorem NodeTrace.step (h : NodeTrace own node events) (hterm : node.currentTerm < 2 ^ 64 - 1) (outside : Nat → Nat)
    (a : RaftStep) : NodeTrace own (raftStep outside node a).1 (events ++ (raftStep outside node a).2.1) := by
  cases a with
  | election env => exact h.election hterm env
  | heartbeat env => exact h.heartbeat outside env
  | appendLog env data =>
    unfold raftStep
    rw [List.append_nil]
    exact h.same (sameRole_appendLog env node data)
  | addNode newNode =>
    unfold raftStep
    rw [List.append_nil]
    exact h.same (sameRole_addNode node newNode)

end

/-- A node that has just been created follows in term 0 and has no vote. -/
theorem nodeTrace_created {avail : Bool} {clock : Clock} {nodeId : CString} {node : RaftNode}
    (hcreate : xdeviceRaftCreateNode avail clock nodeId = some node) :
    NodeTrace node.nodeId node.traced.node node.traced.events := by
  have hempty : NodeTrace node.nodeId node [] := by
    unfold xdeviceRaftCreateNode at hcreate
    split at hcreate
    · cases hcreate
      exact ⟨rfl, .inl rfl, .nil, nofun, .nil, fun before e after he => by simp at he, nofun, nofun, nofun, nofun, nofun,
        nofun, nofun⟩
    · cases hcreate
  exact hempty.emit .stepEnd

/-- In every run of a node from its creation in which no term reaches the last one, the
events keep the discipline. -/
theorem term_discipline {avail : Bool} {clock : Clock} {nodeId : CString} {node : RaftNode}
    (hcreate : xdeviceRaftCreateNode avail clock nodeId = some node) {steps : List TracedStep}
    (hterms : traceMachine.Along (fun s _ => s.node.currentTerm < 2 ^ 64 - 1) node.traced steps) :
    ∃ s codes, traceMachine.run node.traced steps = some (s, codes) ∧ TermDiscipline node.nodeId s.events := by
  have hstep : ∀ (s : TracedNode) (a : TracedStep), NodeTrace node.nodeId s.node s.events →
      s.node.currentTerm < 2 ^ 64 - 1 →
        ∃ s' code, traceMachine.step s a = some (s', code) ∧ NodeTrace node.nodeId s'.node s'.events :=
    fun s a h hterm => ⟨_, _, rfl, (h.step hterm a.outside a.step).emit .stepEnd⟩
  obtain ⟨s, codes, hrun, hs⟩ := Machine.run_of_along hstep (nodeTrace_created hcreate) hterms
  exact ⟨s, codes, hrun, hs.discipline⟩

/-- "A" wins an election with the vote of "B" and sends it a heartbeat. -/
theorem elected_term_discipline :
    ∃ s codes, traceMachine.run newNodeA.traced
      [⟨.addNode (cstr "A"), id⟩, ⟨.addNode (cstr "B"), id⟩, ⟨.election (votesEnv true), id⟩,
        ⟨.heartbeat acceptingEnv, id⟩] = some (s, codes) ∧
      TermDiscipline newNodeA.nodeId s.events :=
  term_discipline newNodeA_created (by decide)

end XDevice
