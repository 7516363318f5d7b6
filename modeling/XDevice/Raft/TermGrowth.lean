import XDevice.Raft.Trace
/-!
# Terms that grow

A term goes up by one when an election starts, and to whatever term a response has if that
is higher. Only the first of the two adds, and so only it can wrap.
-/
open Lib

namespace XDevice

/-! ## Steps of the terms -/

/-- From `term` through the terms of the events to `term'`, none is below the one before. -/
def Rises (term term' : Nat) : List RaftEvent → Prop
  | [] => term ≤ term'
  | e :: events => term ≤ e.term ∧ Rises e.term term' events

/-- No change of the step lowers the term, and an election that starts raises it. -/
structure TermsGrow (s : TracedNode) (a : TracedStep) : Prop where
  rise : Rises s.node.currentTerm (raftStep a.outside s.node a.step).1.currentTerm (raftStep a.outside s.node a.step).2.1
  election : ∀ env, a.step = .election env → electionDue s.node env.now = true →
    s.node.currentTerm < (raftStep a.outside s.node a.step).1.currentTerm

/-- No election starts in the last term of 64 bits. -/
def NotInLastTerm (s : TracedNode) (a : TracedStep) : Prop :=
  match a.step with
  | .election env => electionDue s.node env.now = true → s.node.currentTerm ≠ 2 ^ 64 - 1
  | _ => True

instance (s : TracedNode) : ∀ a, Decidable (NotInLastTerm s a)
  | ⟨.election _, _⟩ => inferInstanceAs (Decidable (_ → _))
  | ⟨.heartbeat _, _⟩ | ⟨.appendLog _ _, _⟩ | ⟨.addNode _, _⟩ => .isTrue trivial

/-- Whatever is answered has a term of 64 bits. -/
def TracedStep.Words (a : TracedStep) : Prop :=
  match a.step with
  | .election env => ∀ i req resp, env.sendVoteRequest i req = some resp → resp.term < 2 ^ 64
  | .heartbeat env => ∀ i req resp, env.sendAppendEntries i req = some resp → resp.term < 2 ^ 64
  | _ => True

section
variable {term term' term'' : Nat} {events events' : List RaftEvent}

theorem Rises.append (h : Rises term term' events) (h' : Rises term' term'' events') : Rises term term'' (events ++ events') := by
  induction events generalizing term with
  | nil =>
    cases events' with
    | nil => exact Nat.le_trans h h'
    | cons e events' => exact ⟨Nat.le_trans h h'.1, h'.2⟩
  | cons e events ih => exact ⟨h.1, ih h.2⟩

end

/-! ## The election thread -/

section
variable {node : RaftNode}

theorem pollTrace_rises (env : ElectionEnv) (node : RaftNode) (votes i : Nat) (ids : List CString) :
    Rises node.currentTerm (pollTrace env node votes i ids).1.1.currentTerm (pollTrace env node votes i ids).2 := by
  induction ids generalizing votes i with
  | nil => exact Nat.le_refl _
  | cons id ids ih =>
    unfold pollTrace
    split
    · exact ih ..
    · dsimp only
      cases env.sendVoteRequest i (voteRequest node) with
      | none => exact ⟨Nat.le_refl _, ih ..⟩
      | some resp =>
        unfold handleVoteResponse
        by_cases hterm : node.currentTerm < resp.term
        · -- the response is dealt with in its own term
          simp only [if_pos hterm]
          exact ⟨Nat.le_refl _, Nat.le_of_lt hterm, Nat.le_refl _⟩
        · simp only [if_neg hterm]
          exact ⟨Nat.le_refl _, Nat.le_refl _, ih ..⟩

theorem pollFrom_term (env : ElectionEnv) (node : RaftNode) (votes i : Nat) (ids : List CString) :
    (pollFrom env node votes i ids).1.currentTerm = node.currentTerm ∨
      ∃ j req resp, env.sendVoteRequest j req = some resp ∧ node.currentTerm < resp.term ∧
        (pollFrom env node votes i ids).1.currentTerm = resp.term := by
  rcases pollFrom_cases env node votes i ids with he | ⟨j, resp, hresp, hterm, he⟩
  · rw [he]
    exact .inl rfl
  · rw [he]
    exact .inr ⟨j, _, resp, hresp, hterm, rfl⟩

theorem finishElection_term (node : RaftNode) (votes : Nat) : (finishElection node votes).currentTerm = node.currentTerm := by
  unfold finishElection
  split <;> rfl

/-- An election that starts goes on in the next term, or in a higher one from a response. -/
theorem electionTrace_due {env : ElectionEnv} (hdue : electionDue node env.now = true) :
    (electionTrace env node).1.currentTerm =
        (pollFrom env (startElection node env.startClock) 1 0 node.clusterNodes).1.currentTerm ∧
      ∃ events, (electionTrace env node).2 = (startElection node env.startClock).event .selfVote :: events ∧
        Rises (add64 node.currentTerm 1) (electionTrace env node).1.currentTerm events := by
  have hrises := pollTrace_rises env (startElection node env.startClock) 1 0 node.clusterNodes
  have hfst := pollTrace_fst env (startElection node env.startClock) 1 0 node.clusterNodes
  unfold electionTrace
  rw [if_pos hdue, ← hfst]
  dsimp only
  refine ⟨finishElection_term .., _, rfl, ?_⟩
  rw [finishElection_term]
  exact hrises.append ⟨Nat.le_refl _, Nat.le_refl _⟩

theorem electionTrace_not_due {env : ElectionEnv} (hdue : ¬ electionDue node env.now = true) :
    electionTrace env node = (node, []) := if_neg hdue

/-! ## The heartbeat thread -/

theorem handleAppendResponse_term (node : RaftNode) (i : Nat) (req : AppendRequest) (success : Bool) :
    (handleAppendResponse node i req success).currentTerm = node.currentTerm := by
  obtain ⟨nextIndex, matchIndex, he⟩ := handleAppendResponse_changes node i req success
  rw [he]

theorem heartbeatTraceFrom_rises (outside : Nat → Nat) (env : HeartbeatEnv) (node : RaftNode) (i : Nat) (ids : List CString) :
    Rises node.currentTerm (heartbeatTraceFrom outside env node i ids).1.currentTerm
        (heartbeatTraceFrom outside env node i ids).2 ∧
      ((heartbeatTraceFrom outside env node i ids).1.currentTerm = node.currentTerm ∨
        ∃ j req resp, env.sendAppendEntries j req = some resp ∧
          (heartbeatTraceFrom outside env node i ids).1.currentTerm = resp.term) := by
  induction ids generalizing node i with
  | nil => exact ⟨Nat.le_refl _, .inl rfl⟩
  | cons id ids ih =>
    unfold heartbeatTraceFrom
    split
    · exact ih ..
    · dsimp only
      cases hresp : env.sendAppendEntries i (appendRequestAt (outside i) node i) with
      | none =>
        obtain ⟨hrises, hterm⟩ := ih node (i + 1)
        exact ⟨⟨Nat.le_refl _, hrises⟩, hterm⟩
      | some resp =>
        by_cases hterm : node.currentTerm < resp.term
        · simp only [if_pos hterm]
          exact ⟨⟨Nat.le_refl _, Nat.le_of_lt hterm, Nat.le_refl _⟩, .inr ⟨_, _, _, hresp, rfl⟩⟩
        · simp only [if_neg hterm]
          have hsame := handleAppendResponse_term node i (appendRequestAt (outside i) node i) resp.success
          obtain ⟨hrises, hafter⟩ := ih (handleAppendResponse node i (appendRequestAt (outside i) node i) resp.success) (i + 1)
          rw [hsame] at hafter
          refine ⟨⟨Nat.le_refl _, Nat.le_of_eq hsame.symm, ?_⟩, hafter⟩
          exact hrises

theorem heartbeatTrace_rises (outside : Nat → Nat) (env : HeartbeatEnv) (node : RaftNode) :
    Rises node.currentTerm (heartbeatTrace outside env node).1.currentTerm (heartbeatTrace outside env node).2 ∧
      ((heartbeatTrace outside env node).1.currentTerm = node.currentTerm ∨
        ∃ j req resp, env.sendAppendEntries j req = some resp ∧
          (heartbeatTrace outside env node).1.currentTerm = resp.term) := by
  unfold heartbeatTrace
  split
  · exact heartbeatTraceFrom_rises outside env node 0 node.clusterNodes
  · exact ⟨Nat.le_refl _, .inl rfl⟩

end

/-! ## Every step -/

section
variable {s s' : TracedNode} {a : TracedStep} {code : XdeviceError}

/-- The term stays a word. -/
theorem term_word_step (hterm : s.node.currentTerm < 2 ^ 64) (ha : a.Words) (hs : traceMachine.step s a = some (s', code)) :
    s'.node.currentTerm < 2 ^ 64 := by
  cases hs
  obtain ⟨step, outside⟩ := a
  cases step with
  | election env =>
    unfold raftStep
    dsimp only
    by_cases hdue : electionDue s.node env.now = true
    · rw [(electionTrace_due hdue).1]
      rcases pollFrom_term env (startElection s.node env.startClock) 1 0 s.node.clusterNodes with he | ⟨j, req, resp, hresp, -, he⟩
      · rw [he]
        exact Nat.mod_lt _ (by omega)
      · rw [he]
        exact ha j req resp hresp
    · rw [electionTrace_not_due hdue]
      exact hterm
  | heartbeat env =>
    rcases (heartbeatTrace_rises outside env s.node).2 with he | ⟨j, req, resp, hresp, he⟩
    · exact he ▸ hterm
    · exact he ▸ ha j req resp hresp
  | appendLog env data =>
    obtain ⟨logEntries, logCapacity, he⟩ := appendLog_changes env s.node data
    unfold raftStep
    dsimp only
    rw [he]
    exact hterm
  | addNode newNode =>
    obtain ⟨clusterNodes, he⟩ := addNode_changes s.node newNode
    unfold raftStep
    dsimp only
    rw [he]
    exact hterm

/-- An election that starts raises the term through all its changes, unless the sum wraps. -/
theorem election_grows_iff {env : ElectionEnv} {outside : Nat → Nat} (hterm : s.node.currentTerm < 2 ^ 64)
    (hdue : electionDue s.node env.now = true) :
    TermsGrow s ⟨.election env, outside⟩ ↔ s.node.currentTerm ≠ 2 ^ 64 - 1 := by
  obtain ⟨hafter, events, hevents, hrises⟩ := electionTrace_due hdue
  constructor
  · intro hgrow hlast
    have hrise := hgrow.rise
    unfold raftStep at hrise
    dsimp only at hrise
    rw [hevents] at hrise
    -- the candidate votes for itself in term zero
    have hzero : s.node.currentTerm ≤ add64 s.node.currentTerm 1 := hrise.1
    unfold add64 at hzero
    omega
  · intro hne
    have hnext : add64 s.node.currentTerm 1 = s.node.currentTerm + 1 := add64_eq (by omega)
    refine ⟨?_, fun env' he _ => ?_⟩
    · unfold raftStep
      dsimp only
      rw [hevents]
      exact ⟨Nat.le_trans (Nat.le_succ _) (Nat.le_of_eq hnext.symm), hrises⟩
    · unfold raftStep
      dsimp only
      rw [hafter]
      have hstart : (startElection s.node env.startClock).currentTerm = s.node.currentTerm + 1 := hnext
      rcases pollFrom_term env (startElection s.node env.startClock) 1 0 s.node.clusterNodes with he | ⟨j, req, resp, -, hlt, he⟩
      · omega
      · omega

theorem termsGrow_iff (hterm : s.node.currentTerm < 2 ^ 64) : TermsGrow s a ↔ NotInLastTerm s a := by
  obtain ⟨step, outside⟩ := a
  cases step with
  | election env =>
    by_cases hdue : electionDue s.node env.now = true
    · rw [election_grows_iff hterm hdue]
      exact ⟨fun h _ => h, fun h => h hdue⟩
    · refine iff_of_true ⟨?_, ?_⟩ fun h => absurd h hdue
      · unfold raftStep
        dsimp only
        rw [electionTrace_not_due hdue]
        exact Nat.le_refl _
      · intro env' he hdue'
        cases he
        exact absurd hdue' hdue
  | heartbeat env => exact iff_of_true ⟨(heartbeatTrace_rises outside env s.node).1, nofun⟩ trivial
  | appendLog env data =>
    obtain ⟨logEntries, logCapacity, he⟩ := appendLog_changes env s.node data
    refine iff_of_true ⟨?_, nofun⟩ trivial
    unfold raftStep
    dsimp only
    rw [he]
    exact Nat.le_refl _
  | addNode newNode =>
    obtain ⟨clusterNodes, he⟩ := addNode_changes s.node newNode
    refine iff_of_true ⟨?_, nofun⟩ trivial
    unfold raftStep
    dsimp only
    rw [he]
    exact Nat.le_refl _

end

/-! ## Main theorem -/

theorem created_term {avail : Bool} {clock : Clock} {nodeId : CString} {node : RaftNode}
    (hcreate : xdeviceRaftCreateNode avail clock nodeId = some node) : node.currentTerm = 0 := by
  unfold xdeviceRaftCreateNode at hcreate
  split at hcreate
  · cases hcreate
    rfl
  · cases hcreate

/-- In a run of a node from its creation, with whatever terms in the responses, no change of
a step lowers the term and every election raises it, just when no election starts in the
last term. -/
theorem terms_grow_iff {avail : Bool} {clock : Clock} {nodeId : CString} {node : RaftNode}
    (hcreate : xdeviceRaftCreateNode avail clock nodeId = some node) (steps : List TracedStep)
    (hwords : ∀ a ∈ steps, a.Words) :
    traceMachine.Along TermsGrow node.traced steps ↔ traceMachine.Along NotInLastTerm node.traced steps := by
  have hterm : node.traced.node.currentTerm < 2 ^ 64 := by
    have hzero : node.traced.node.currentTerm = 0 := created_term hcreate
    omega
  exact Machine.along_iff (A := TracedStep.Words) (I := fun s => s.node.currentTerm < 2 ^ 64)
    (fun s a s' code h ha _ hs => term_word_step h ha hs) (fun s a h _ => termsGrow_iff h) hterm hwords

/-- An election at `now` in which every request is answered alike. -/
def answeredEnv (now : Nat) (answer : Option VoteResponse) : ElectionEnv where
  now := now
  startClock := ⟨now, 0⟩
  sendVoteRequest _ _ := answer
  stepClock _ := ⟨now, 0⟩

/-- "A" and "B" are a cluster, and "A" holds two elections: "B" answers the first with this
term, and the second not at all. -/
def twoElections (term : Nat) : List TracedStep :=
  [⟨.addNode (cstr "A"), id⟩, ⟨.addNode (cstr "B"), id⟩, ⟨.election (answeredEnv 1000 (some ⟨term, false⟩)), id⟩,
    ⟨.election (answeredEnv 2000 none), id⟩]

/-- "A" hears of term 7 and goes on in term 8. -/
theorem higher_term_grows : traceMachine.Along TermsGrow newNodeA.traced (twoElections 7) := by
  refine (terms_grow_iff newNodeA_created _ ?_).2 (by decide)
  unfold twoElections
  refine List.forall_mem_cons.2 ⟨trivial, List.forall_mem_cons.2 ⟨trivial, List.forall_mem_cons.2 ⟨?_, ?_⟩⟩⟩
  · intro i req resp hresp
    cases hresp
    decide
  · refine List.forall_mem_cons.2 ⟨?_, fun a ha => absurd ha List.not_mem_nil⟩
    intro i req resp hresp
    cases hresp

/-- "B" answers with the last term there is, and "A" takes it over; its next election is for
term zero. -/
theorem last_term_wraps :
    ((traceMachine.run newNodeA.traced ((twoElections (2 ^ 64 - 1)).take 3)).map fun r => r.1.node.currentTerm) =
      some (2 ^ 64 - 1) ∧
    ((traceMachine.run newNodeA.traced (twoElections (2 ^ 64 - 1))).map fun r => (r.1.node.state, r.1.node.currentTerm)) =
      some (.candidate, 0) ∧
    ¬ traceMachine.Along TermsGrow newNodeA.traced (twoElections (2 ^ 64 - 1)) := by
  refine ⟨by decide, by decide, fun h => ?_⟩
  have hgrow := (((h.2 _ _ rfl).2 _ _ rfl).2 _ _ rfl).1
  exact absurd (hgrow.election _ rfl (by decide)) (by decide)

end XDevice
