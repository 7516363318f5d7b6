import XDevice.Raft.Index
/-!
# The timers of a node

Both threads compare the clock with what they wrote down of it: the election thread with
`election_timeout`, the heartbeat thread with `last_heartbeat`. While the clock does not go
back, this bounds from above how often a node starts an election and sends heartbeats, and
from below how often a node that never leads starts one.
-/
open Lib

namespace XDevice

/-! ## Time -/

/-- A node with the last time it has read, the elections it has started, its rounds of
heartbeats and the last time its election thread has looked at the clock. -/
structure TimedNode where
  node : RaftNode
  time : Nat
  elections : Nat
  rounds : Nat
  looked : Nat

/-- A new node, its timer just set. -/
def RaftNode.timed (node : RaftNode) (now : Nat) : TimedNode := ⟨node, now, 0, 0, now⟩

/-- The heartbeat thread finds that it is time. -/
def heartbeatDue (node : RaftNode) (now : Nat) : Bool :=
  node.state = .leader ∧ raftHeartbeatIntervalMs ≤ sub64 now node.lastHeartbeat

/-- The counters after a step that ends at `time`. -/
def TimedNode.after (s : TimedNode) (time : Nat) (node : RaftNode) : RaftStep → TimedNode
  | .election env =>
    ⟨node, time, if electionDue s.node env.now then s.elections + 1 else s.elections, s.rounds, env.now⟩
  | .heartbeat env =>
    ⟨node, time, s.elections, if heartbeatDue s.node env.now then s.rounds + 1 else s.rounds, s.looked⟩
  | _ => ⟨node, time, s.elections, s.rounds, s.looked⟩

/-- A step, and the time at its end. -/
def timedMachine : Machine TimedNode (RaftStep × Nat) XdeviceError where
  step s a := (nodeMachine.step s.node a.1).map fun r => (s.after a.2 r.1 a.1, r.2)

/-- From `t` to `t'` the clock is read in this order. -/
def ClocksBetween (t t' : Nat) : RaftStep → Prop
  | .election env =>
    t ≤ env.now ∧ env.now ≤ env.startClock.now ∧ ∀ i, env.startClock.now ≤ (env.stepClock i).now ∧ (env.stepClock i).now ≤ t'
  | .heartbeat env => t ≤ env.now ∧ ∀ i, env.now ≤ (env.stepClock i).now ∧ (env.stepClock i).now ≤ t'
  | _ => t ≤ t'

/-- The clock does not go back, and is far from its end. -/
def ClockRuns (s : TimedNode) (a : RaftStep × Nat) : Prop := ClocksBetween s.time a.2 a.1 ∧ a.2 + 300 ≤ 2 ^ 64

/-- The election thread looks at the clock again within `d` ms, and is done with it within `d` ms. -/
def Attentive (d : Nat) (s : TimedNode) (a : RaftStep × Nat) : Prop :=
  match a.1 with
  | .election env => env.now ≤ s.looked + d ∧ a.2 ≤ env.now + d
  | _ => a.2 ≤ s.looked + d

instance (d : Nat) : ∀ s a, Decidable (Attentive d s a)
  | s, (.election env, time) => inferInstanceAs (Decidable (env.now ≤ s.looked + d ∧ time ≤ env.now + d))
  | s, (.heartbeat _, time) | s, (.appendLog _ _, time) | s, (.addNode _, time) =>
    inferInstanceAs (Decidable (time ≤ s.looked + d))

/-! ## What the threads do to their timers -/

/-- The timer that is set when the clock shows this. -/
def Clock.timeout (clock : Clock) : Nat := add64 clock.now (generateElectionTimeout clock.rand)

section
variable {node node' : RaftNode}

theorem Clock.timeout_bounds {clock : Clock} (h : clock.now + 300 ≤ 2 ^ 64) :
    clock.now + 150 ≤ clock.timeout ∧ clock.timeout ≤ clock.now + 299 := by
  have hrand : clock.rand % 150 < 150 := Nat.mod_lt _ (by decide)
  have hgen : generateElectionTimeout clock.rand = 150 + clock.rand % 150 := rfl
  unfold Clock.timeout
  rw [hgen, add64_eq (by omega)]
  omega

/-- An election that is due sets the timer, and its winner's first round is due at once. -/
theorem election_timer {env : ElectionEnv} (hdue : electionDue node env.now = true) :
    ∃ clock, (clock = env.startClock ∨ ∃ i, clock = env.stepClock i) ∧
      (electionIteration env node).electionTimeout = clock.timeout ∧
      ((electionIteration env node).state = .leader ∧ (electionIteration env node).lastHeartbeat = 0 ∨
        (electionIteration env node).state ≠ .leader ∧ (electionIteration env node).lastHeartbeat = node.lastHeartbeat) := by
  unfold electionIteration
  rw [if_pos hdue]
  have hpoll := pollFrom_cases env (startElection node env.startClock) 1 0 node.clusterNodes
  generalize pollFrom env (startElection node env.startClock) 1 0 node.clusterNodes = polled at hpoll ⊢
  obtain ⟨node', votes⟩ := polled
  rcases hpoll with he | ⟨j, resp, -, -, rfl⟩
  · cases he
    refine ⟨env.startClock, .inl rfl, ?_⟩
    dsimp only
    unfold finishElection
    split
    · exact ⟨rfl, .inl ⟨rfl, rfl⟩⟩
    · exact ⟨rfl, .inr ⟨nofun, rfl⟩⟩
  · have hlost : finishElection (stepDown (startElection node env.startClock) resp.term (env.stepClock j)) votes =
        stepDown (startElection node env.startClock) resp.term (env.stepClock j) := if_neg fun hwon => nomatch hwon.1
    dsimp only
    rw [hlost]
    exact ⟨env.stepClock j, .inr ⟨j, rfl⟩, rfl, .inr ⟨nofun, rfl⟩⟩

/-- The loop over the followers leaves the timer alone, or ends in a step down. -/
theorem heartbeatFrom_timer {env : HeartbeatEnv} {i : Nat} {ids : List CString}
    (h : heartbeatFrom env node i ids = some node') :
    node'.state = node.state ∧ node'.electionTimeout = node.electionTimeout ∨
      node'.state = .follower ∧ ∃ j, node'.electionTimeout = (env.stepClock j).timeout := by
  induction ids generalizing node i with
  | nil =>
    cases h
    exact .inl ⟨rfl, rfl⟩
  | cons id ids ih =>
    unfold heartbeatFrom at h
    split at h
    · exact ih h
    · obtain ⟨req, -, h⟩ := Option.bind_eq_some_iff.1 h
      split at h
      · exact ih h
      · rename_i resp _
        split at h
        · cases h
          exact .inr ⟨rfl, i, rfl⟩
        · obtain ⟨nextIndex, matchIndex, he⟩ := handleAppendResponse_changes node i req resp.success
          rw [he] at h
          have hrest := ih h
          exact hrest

/-- A round of heartbeats is written down, and nothing is when it is not time. -/
theorem heartbeat_timer {env : HeartbeatEnv} (h : heartbeatIteration env node = some node') :
    heartbeatDue node env.now = false ∧ node' = node ∨
    heartbeatDue node env.now = true ∧ node'.lastHeartbeat = env.now ∧
      (node'.state = node.state ∧ node'.electionTimeout = node.electionTimeout ∨
        node'.state = .follower ∧ ∃ j, node'.electionTimeout = (env.stepClock j).timeout) := by
  unfold heartbeatIteration at h
  split at h
  · rename_i hdue
    obtain ⟨node1, hloop, rfl⟩ := Option.map_eq_some_iff.1 h
    have hafter := heartbeatFrom_timer hloop
    exact .inr ⟨decide_eq_true hdue, rfl, hafter⟩
  · rename_i hdue
    cases h
    exact .inl ⟨decide_eq_false hdue, rfl⟩

end

/-! ## At most so often -/

/-- Since `t0`, no more elections and rounds than the timers allow. A round that is due at
once is paid for by the election that was won. -/
structure Paced (t0 : Nat) (s : TimedNode) : Prop where
  start : t0 + 150 * s.elections ≤ s.time
  timeout : t0 + 150 * (s.elections + 1) ≤ s.node.electionTimeout
  heard : s.node.lastHeartbeat ≤ s.time
  rounds : t0 + 50 * s.rounds ≤ (if s.node.lastHeartbeat = 0 then s.time else s.node.lastHeartbeat) + 50 * s.elections
  owed : s.node.state = .leader → s.node.lastHeartbeat = 0 → t0 + 50 * (s.rounds + 1) ≤ s.time + 50 * s.elections

section
variable {t0 : Nat} {s s' : TimedNode} {a : RaftStep × Nat} {code : XdeviceError}

/-- Rounds are within what the clock shows. -/
theorem Paced.rounds_time (h : Paced t0 s) : t0 + 50 * s.rounds ≤ s.time + 50 * s.elections := by
  have hrounds := h.rounds
  have hheard := h.heard
  split at hrounds <;> omega

/-- Time passes, and the node does not change. -/
theorem Paced.wait (h : Paced t0 s) {time : Nat} (htime : s.time ≤ time) (node : RaftNode)
    (htimeout : node.electionTimeout = s.node.electionTimeout) (hheard : node.lastHeartbeat = s.node.lastHeartbeat)
    (hstate : node.state = s.node.state) (looked : Nat) : Paced t0 ⟨node, time, s.elections, s.rounds, looked⟩ := by
  have hrounds := h.rounds
  refine ⟨Nat.le_trans h.start htime, ?_, ?_, ?_, fun hl h0 => ?_⟩
  · rw [htimeout]
    exact h.timeout
  · rw [hheard]
    exact Nat.le_trans h.heard htime
  · dsimp only
    rw [hheard]
    split at hrounds
    · rename_i h0
      rw [if_pos h0]
      omega
    · rename_i h0
      rw [if_neg h0]
      exact hrounds
  · have howed := h.owed (hstate ▸ hl) (hheard ▸ h0)
    dsimp only
    omega

/-- An election is started when the timer says so, and sets it anew. -/
theorem Paced.election (h : Paced t0 s) {env : ElectionEnv} {time : Nat} (hclock : ClocksBetween s.time time (.election env))
    (hlast : time + 300 ≤ 2 ^ 64) : Paced t0 (s.after time (electionIteration env s.node) (.election env)) := by
  have hstart := h.start
  have hheard := h.heard
  have hrounds := h.rounds_time
  obtain ⟨hnow, hset, hsteps⟩ := hclock
  have htime := hsteps 0
  by_cases hdue : electionDue s.node env.now = true
  · obtain ⟨clock, hwhich, htimer, hwon⟩ := election_timer hdue
    have hread : env.now ≤ clock.now ∧ clock.now ≤ time := by
      rcases hwhich with rfl | ⟨i, rfl⟩
      · omega
      · have := hsteps i
        omega
    have hword : clock.now + 300 ≤ 2 ^ 64 := Nat.le_trans (Nat.add_le_add_right hread.2 300) hlast
    have hbounds := Clock.timeout_bounds hword
    rw [← htimer] at hbounds
    clear htimer
    have hpassed : s.node.electionTimeout ≤ env.now := by
      unfold electionDue at hdue
      simpa using (Bool.and_eq_true_iff.1 hdue).2
    have hnext : t0 + 150 * (s.elections + 1) ≤ clock.now := Nat.le_trans h.timeout (Nat.le_trans hpassed hread.1)
    have hlater : t0 + 150 * (s.elections + 1 + 1) ≤ clock.now + 150 := by
      rw [Nat.mul_succ, ← Nat.add_assoc]
      exact Nat.add_le_add_right hnext 150
    simp only [TimedNode.after, if_pos hdue]
    refine ⟨?_, ?_, ?_, ?_, fun hl h0 => ?_⟩ <;> dsimp only
    · omega
    · exact Nat.le_trans hlater hbounds.1
    · rcases hwon with ⟨-, h0⟩ | ⟨-, hsame⟩ <;> omega
    · rcases hwon with ⟨-, h0⟩ | ⟨-, hsame⟩
      · rw [if_pos h0]
        omega
      · have hold := h.rounds
        rw [hsame]
        split at hold
        · rename_i h0
          rw [if_pos h0]
          omega
        · rename_i h0
          rw [if_neg h0]
          omega
    · omega
  · have hsame : electionIteration env s.node = s.node := if_neg hdue
    rw [hsame]
    simp only [TimedNode.after, if_neg hdue]
    exact h.wait (by omega) s.node rfl rfl rfl env.now

/-- A round is made when 50 ms have passed, or an election that was won makes it due. -/
theorem Paced.heartbeat (h : Paced t0 s) {env : HeartbeatEnv} {time : Nat} {node : RaftNode}
    (hclock : ClocksBetween s.time time (.heartbeat env)) (hlast : time + 300 ≤ 2 ^ 64)
    (hiter : heartbeatIteration env s.node = some node) : Paced t0 (s.after time node (.heartbeat env)) := by
  have hstart := h.start
  have htimeout := h.timeout
  have hheard := h.heard
  have hrounds := h.rounds_time
  obtain ⟨hnow, hsteps⟩ := hclock
  have htime := hsteps 0
  rcases heartbeat_timer hiter with ⟨hdue, rfl⟩ | ⟨hdue, hlastbeat, hafter⟩
  · simp only [TimedNode.after, hdue]
    exact h.wait (by omega) s.node rfl rfl rfl s.looked
  · simp only [TimedNode.after, if_pos hdue]
    obtain ⟨hlead, hinterval⟩ : s.node.state = .leader ∧ 50 ≤ sub64 env.now s.node.lastHeartbeat := of_decide_eq_true hdue
    rw [sub64_eq (by omega) (by omega)] at hinterval
    have howed := h.owed hlead
    have hold := h.rounds
    refine ⟨?_, ?_, ?_, ?_, fun hl h0 => ?_⟩ <;> dsimp only at *
    · omega
    · rcases hafter with ⟨-, hsame⟩ | ⟨-, j, hreset⟩
      · rw [hsame]
        exact htimeout
      · have hread := hsteps j
        have hword : (env.stepClock j).now + 300 ≤ 2 ^ 64 := by omega
        have hbounds := Clock.timeout_bounds hword
        omega
    · omega
    · rw [hlastbeat, if_neg (by omega)]
      split at hold
      · rename_i h0
        have := howed h0
        omega
      · omega
    · omega

theorem paced_step (h : Paced t0 s) (hc : ClockRuns s a) (hs : timedMachine.step s a = some (s', code)) : Paced t0 s' := by
  obtain ⟨hclock, hlast⟩ := hc
  obtain ⟨⟨node, ret⟩, hstep, he⟩ := Option.map_eq_some_iff.1 hs
  cases he
  obtain ⟨step, time⟩ := a
  cases step with
  | election env =>
    have hnode : electionIteration env s.node = node := congrArg Prod.fst (Option.some.inj hstep)
    rw [← hnode]
    exact h.election hclock hlast
  | heartbeat env =>
    obtain ⟨node', hiter, he⟩ := Option.map_eq_some_iff.1 hstep
    cases he
    exact h.heartbeat hclock hlast hiter
  | appendLog env data =>
    obtain ⟨logEntries, logCapacity, he⟩ := appendLog_changes env s.node data
    have hnode : (xdeviceRaftAppendLog env s.node data).1 = node := congrArg Prod.fst (Option.some.inj hstep)
    rw [he] at hnode
    have hwait := h.wait hclock node (by rw [← hnode]) (by rw [← hnode]) (by rw [← hnode]) s.looked
    exact hwait
  | addNode newNode =>
    obtain ⟨clusterNodes, he⟩ := addNode_changes s.node newNode
    have hnode : (xdeviceRaftAddNodeToCluster s.node newNode).1 = node := congrArg Prod.fst (Option.some.inj hstep)
    rw [he] at hnode
    have hwait := h.wait hclock node (by rw [← hnode]) (by rw [← hnode]) (by rw [← hnode]) s.looked
    exact hwait

end

/-! ## At least so often -/

/-- A node that has not led: its timer is not far ahead of the elections started, and ahead
of what its election thread has seen. -/
structure Eager (t0 d : Nat) (s : TimedNode) : Prop where
  timeout : s.node.electionTimeout ≤ t0 + s.elections * (299 + 2 * d) + 299
  looked : s.looked < s.node.electionTimeout
  time : s.time ≤ s.looked + d
  word : s.time + 300 ≤ 2 ^ 64

section
variable {t0 d : Nat} {s s' : TimedNode} {a : RaftStep × Nat} {code : XdeviceError}

/-- Time passes, and the node does not change. -/
theorem Eager.wait (h : Eager t0 d s) {time looked : Nat} (node : RaftNode) (rounds : Nat)
    (htimeout : node.electionTimeout = s.node.electionTimeout) (hlooked : looked < s.node.electionTimeout)
    (htime : time ≤ looked + d) (hword : time + 300 ≤ 2 ^ 64) : Eager t0 d ⟨node, time, s.elections, rounds, looked⟩ := by
  refine ⟨?_, ?_, htime, hword⟩
  · rw [htimeout]
    exact h.timeout
  · rw [htimeout]
    exact hlooked

theorem eager_step (h : Eager t0 d s) (hfollows : s.node.state ≠ .leader) (hc : ClockRuns s a) (ha : Attentive d s a)
    (hs : timedMachine.step s a = some (s', code)) : Eager t0 d s' := by
  obtain ⟨hclock, hlast⟩ := hc
  obtain ⟨⟨node, ret⟩, hstep, he⟩ := Option.map_eq_some_iff.1 hs
  cases he
  have htimeout := h.timeout
  have hlooked := h.looked
  obtain ⟨step, time⟩ := a
  cases step with
  | election env =>
    have hnode : electionIteration env s.node = node := congrArg Prod.fst (Option.some.inj hstep)
    obtain ⟨hnow, hset, hsteps⟩ := hclock
    obtain ⟨hsoon, hdone⟩ := ha
    by_cases hdue : electionDue s.node env.now = true
    · obtain ⟨clock, hwhich, htimer, -⟩ := election_timer hdue
      rw [hnode] at htimer
      have hread : env.now ≤ clock.now ∧ clock.now ≤ time := by
        rcases hwhich with rfl | ⟨i, rfl⟩
        · have := hsteps 0
          exact ⟨hset, Nat.le_trans this.1 this.2⟩
        · have := hsteps i
          exact ⟨Nat.le_trans hset this.1, this.2⟩
      have hword : clock.now + 300 ≤ 2 ^ 64 := Nat.le_trans (Nat.add_le_add_right hread.2 300) hlast
      have hbounds := Clock.timeout_bounds hword
      rw [← htimer] at hbounds
      clear htimer
      simp only [TimedNode.after, if_pos hdue]
      refine ⟨?_, ?_, hdone, hlast⟩ <;> dsimp only at *
      · rw [Nat.succ_mul]
        omega
      · omega
    · have hsame : electionIteration env s.node = s.node := if_neg hdue
      have hearly : env.now < s.node.electionTimeout := by
        by_contra hle
        exact hdue (by simp [electionDue, hfollows, Nat.not_lt.1 hle])
      rw [← hnode, hsame]
      simp only [TimedNode.after, if_neg hdue]
      exact h.wait s.node s.rounds rfl hearly hdone hlast
  | heartbeat env =>
    obtain ⟨node', hiter, he⟩ := Option.map_eq_some_iff.1 hstep
    cases he
    rcases heartbeat_timer hiter with ⟨hdue, rfl⟩ | ⟨hdue, -⟩
    · simp only [TimedNode.after, hdue]
      exact h.wait s.node _ rfl hlooked ha hlast
    · exact absurd (of_decide_eq_true hdue).1 hfollows
  | appendLog env data =>
    obtain ⟨logEntries, logCapacity, he⟩ := appendLog_changes env s.node data
    have hnode : (xdeviceRaftAppendLog env s.node data).1 = node := congrArg Prod.fst (Option.some.inj hstep)
    rw [he] at hnode
    exact h.wait node s.rounds (by rw [← hnode]) hlooked ha hlast
  | addNode newNode =>
    obtain ⟨clusterNodes, he⟩ := addNode_changes s.node newNode
    have hnode : (xdeviceRaftAddNodeToCluster s.node newNode).1 = node := congrArg Prod.fst (Option.some.inj hstep)
    rw [he] at hnode
    exact h.wait node s.rounds (by rw [← hnode]) hlooked ha hlast

end

/-! ## Main theorems -/

section
variable {avail : Bool} {clock : Clock} {nodeId : CString} {node : RaftNode} {steps : List (RaftStep × Nat)} {s : TimedNode}
  {codes : List XdeviceError} {d : Nat}

theorem timers_created (hcreate : xdeviceRaftCreateNode avail clock nodeId = some node)
    (hword : clock.now + 300 ≤ 2 ^ 64) (d : Nat) :
    Paced clock.now (node.timed clock.now) ∧ Eager clock.now d (node.timed clock.now) := by
  unfold xdeviceRaftCreateNode at hcreate
  split at hcreate
  · have hbounds := Clock.timeout_bounds hword
    have htimer : node.electionTimeout = clock.timeout ∧ node.lastHeartbeat = 0 ∧ node.state = .follower := by
      cases hcreate
      exact ⟨rfl, rfl, rfl⟩
    obtain ⟨htimeout, h0, hstate⟩ := htimer
    rw [← htimeout] at hbounds
    clear htimeout
    refine ⟨⟨Nat.le_refl _, ?_, ?_, ?_, fun hl => ?_⟩, ⟨?_, ?_, Nat.le_add_right _ _, hword⟩⟩
    · exact hbounds.1
    · exact Nat.le_trans (Nat.le_of_eq h0) (Nat.zero_le _)
    · exact Nat.le_of_eq (by simp [RaftNode.timed, h0])
    · exact absurd (hl.symm.trans hstate) nofun
    · exact Nat.le_trans hbounds.2 (by simp [RaftNode.timed])
    · exact Nat.lt_of_lt_of_le (Nat.lt_add_of_pos_right (by decide)) hbounds.1
  · cases hcreate

/-- In a run of a new node whose clock does not go back, elections are 150 ms apart on
average at least, and rounds of heartbeats 50 ms, but for one that each election won makes due. -/
theorem elections_paced (hcreate : xdeviceRaftCreateNode avail clock nodeId = some node) (hword : clock.now + 300 ≤ 2 ^ 64)
    (hclock : timedMachine.Along ClockRuns (node.timed clock.now) steps)
    (hrun : timedMachine.run (node.timed clock.now) steps = some (s, codes)) :
    150 * s.elections ≤ s.time - clock.now ∧ 50 * s.rounds ≤ (s.time - clock.now) + 50 * s.elections := by
  have hstart := (timers_created hcreate hword 0).1
  have hend : Paced clock.now s := Machine.run_inv_along (fun s a s' b h hc hs => paced_step h hc hs) hstart hclock hrun
  have helections := hend.start
  have hrounds := hend.rounds_time
  omega

/-- The election thread looks at the clock, and no request is answered. -/
def unansweredLook (now : Nat) : RaftStep × Nat := (.election ⟨now, ⟨now, 0⟩, fun _ _ => none, fun _ => ⟨now, 0⟩⟩, now)

/-- Two nodes, of which the other one does not answer: elections at 200 and 400. -/
def waitingSteps : List (RaftStep × Nat) :=
  [(.addNode (cstr "A"), 0), (.addNode (cstr "B"), 0), unansweredLook 200, unansweredLook 300, unansweredLook 400]

theorem waitingSteps_clock : timedMachine.Along ClockRuns (newNodeA.timed 0) waitingSteps := by
  have hlook : ∀ (s : TimedNode) now, s.time ≤ now → now ≤ 400 → ClockRuns s (unansweredLook now) := by
    intro s now hle hlast
    exact ⟨⟨hle, Nat.le_refl _, fun _ => ⟨Nat.le_refl _, Nat.le_refl _⟩⟩,
      Nat.le_trans (Nat.add_le_add_right hlast 300) (by decide)⟩
  refine ⟨⟨Nat.le_refl _, by decide⟩, fun _ _ hs => ?_⟩
  cases hs
  refine ⟨⟨Nat.le_refl _, by decide⟩, fun _ _ hs => ?_⟩
  cases hs
  refine ⟨hlook _ 200 (Nat.zero_le _) (by decide), fun _ _ hs => ?_⟩
  cases hs
  refine ⟨hlook _ 300 (by decide) (by decide), fun _ _ hs => ?_⟩
  cases hs
  exact ⟨hlook _ 400 (by decide) (by decide), fun _ _ _ => trivial⟩

theorem waitingSteps_paced : ∃ s codes, timedMachine.run (newNodeA.timed 0) waitingSteps = some (s, codes) ∧
    s.elections = 2 ∧ 150 * 2 ≤ s.time - 0 ∧ 50 * s.rounds ≤ (s.time - 0) + 50 * s.elections := by
  obtain ⟨r, hrun, hcount⟩ : ∃ r, timedMachine.run (newNodeA.timed 0) waitingSteps = some r ∧ r.1.elections = 2 :=
    ⟨_, rfl, rfl⟩
  obtain ⟨helections, hrounds⟩ := elections_paced newNodeA_created (by decide) waitingSteps_clock hrun
  rw [hcount] at helections
  exact ⟨r.1, r.2, hrun, hcount, helections, hrounds⟩

/-- A new node whose election thread is never away for more than `d` ms, and that does not
come to lead, starts an election at least every `299 + 2 * d` ms. -/
theorem elections_keep_on (hcreate : xdeviceRaftCreateNode avail clock nodeId = some node) (hword : clock.now + 300 ≤ 2 ^ 64)
    (hclock : timedMachine.Along ClockRuns (node.timed clock.now) steps)
    (hattentive : timedMachine.Along (Attentive d) (node.timed clock.now) steps)
    (hfollows : timedMachine.Along (fun s _ => s.node.state ≠ .leader) (node.timed clock.now) steps)
    (hrun : timedMachine.run (node.timed clock.now) steps = some (s, codes)) :
    s.time - clock.now ≤ (s.elections + 1) * (299 + 2 * d) := by
  have hstart := (timers_created hcreate hword d).2
  have hend : Eager clock.now d s := Machine.run_inv_along
    (fun s a s' b h hc hs => eager_step h hc.2 hc.1.1 hc.1.2 hs) hstart ((hclock.and hattentive).and hfollows) hrun
  have htimeout := hend.timeout
  have hlooked := hend.looked
  have htime := hend.time
  rw [Nat.succ_mul]
  omega

theorem waitingSteps_keep_on : ∃ s codes, timedMachine.run (newNodeA.timed 0) waitingSteps = some (s, codes) ∧
    s.elections = 2 ∧ s.time - 0 ≤ (2 + 1) * (299 + 2 * 200) := by
  obtain ⟨r, hrun, hcount⟩ : ∃ r, timedMachine.run (newNodeA.timed 0) waitingSteps = some r ∧ r.1.elections = 2 :=
    ⟨_, rfl, rfl⟩
  have hattentive : timedMachine.Along (Attentive 200) (newNodeA.timed 0) waitingSteps := by decide
  have hfollows : timedMachine.Along (fun s _ => s.node.state ≠ .leader) (newNodeA.timed 0) waitingSteps := by decide
  have hlast := elections_keep_on newNodeA_created (by decide) waitingSteps_clock hattentive hfollows hrun
  rw [hcount] at hlast
  exact ⟨r.1, r.2, hrun, hcount, hlast⟩

end

end XDevice
