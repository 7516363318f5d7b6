import XDevice.Lib.CommonPrefix
import XDevice.Raft.Index
/-!
# Backing off to the common prefix

Heartbeats carry no entries. All a leader does about the log of a follower is to
lower that follower's `next_index` by one when `prev_log_index` is refused: a search
that starts one past the log at the election and ends where the two logs part.
-/
open Lib

namespace XDevice

deriving instance DecidableEq for RaftLogEntry

/-! ## Two logs -/

/-- Log Matching: equal terms at an index imply equal logs up to it. -/
def LogMatching (L F : List RaftLogEntry) : Prop :=
  ∀ k e e', L[k]? = some e → F[k]? = some e' → e.term = e'.term → L.take (k + 1) = F.take (k + 1)

/-- The entry before the next one is in the follower's log `F`, or there is none. -/
def HoldsPrev (F : List RaftLogEntry) (req : AppendRequest) : Prop :=
  req.prevLogIndex = 0 ∨ F[req.prevLogIndex - 1]?.map RaftLogEntry.term = some req.prevLogTerm

instance (F : List RaftLogEntry) (req : AppendRequest) : Decidable (HoldsPrev F req) :=
  inferInstanceAs (Decidable (_ ∨ _))

/-- In logs that match, the terms at an index agree just when it is in the common prefix. -/
theorem LogMatching.term_iff {L F : List RaftLogEntry} (h : LogMatching L F) {k : Nat} (hk : k < L.length) :
    F[k]?.map RaftLogEntry.term = L[k]?.map RaftLogEntry.term ↔ k < commonPrefix L F := by
  constructor
  · intro hterm
    rw [List.getElem?_eq_getElem hk, Option.map_some] at hterm
    obtain ⟨e, he, hsame⟩ := Option.map_eq_some_iff.1 hterm
    have hF : k < F.length := (List.getElem?_eq_some_iff.1 he).1
    exact le_commonPrefix_iff.2 ⟨hk, hF, h k _ e (List.getElem?_eq_getElem hk) he hsame.symm⟩
  · intro hp
    rw [getElem?_of_lt_commonPrefix hp]

/-! ## One peer of a leader -/

/-- A leader, and how many heartbeats one of its peers has answered. -/
structure WatchedLeader where
  node : RaftNode
  delivered : Nat

/-- The heartbeats of a step that the peer at slot `i` answers, as long as the node leads. -/
def delivered (i : Nat) (node : RaftNode) : RaftStep → Nat
  | .heartbeat env =>
    if node.state = .leader ∧ raftHeartbeatIntervalMs ≤ sub64 env.now node.lastHeartbeat ∧
        ((appendRequest node i).bind (env.sendAppendEntries i)).isSome then 1
    else 0
  | _ => 0

/-- The steps of the node, with a count of the heartbeats that slot `i` answers. -/
def backOffMachine (i : Nat) : Machine WatchedLeader RaftStep XdeviceError where
  step s a := (nodeMachine.step s.node a).map fun r => (⟨r.1, s.delivered + delivered i s.node a⟩, r.2)

/-- A follower at slot `i` whose log stays `F`, in a cluster that stays as it is. A request
that is not answered says nothing, and an answer with a higher term ends the leadership. -/
def Steady (F : List RaftLogEntry) (i : Nat) (s : WatchedLeader) : RaftStep → Prop
  | .heartbeat env => ∀ req resp, appendRequest s.node i = some req → env.sendAppendEntries i req = some resp →
      (resp.success = true ↔ HoldsPrev F req)
  | .addNode _ => xdeviceMaxNodes ≤ s.node.clusterSize
  | _ => True

/-- The next index of slot `i` between the common prefix and the log `L` at the election, and
where they part once the peer has answered often enough. -/
structure FindsPrefix (i : Nat) (L F : List RaftLogEntry) (s : WatchedLeader) : Prop where
  above : commonPrefix L F + 1 ≤ s.node.nextIndex.getD i 0
  below : s.node.nextIndex.getD i 0 ≤ L.length + 1
  matched : s.node.matchIndex.getD i 0 = 0 ∨ s.node.matchIndex.getD i 0 = commonPrefix L F
  found : L.length - commonPrefix L F + 1 ≤ s.delivered →
    s.node.matchIndex.getD i 0 = commonPrefix L F ∧ s.node.nextIndex.getD i 0 = commonPrefix L F + 1

/-! ## One slot of the loop -/

/-- Two nodes that differ in the indices of the peers at most, and not at slot `i`. -/
structure SameSlot (i : Nat) (node node' : RaftNode) : Prop where
  rest : ∃ nextIndex matchIndex, node' = { node with nextIndex := nextIndex, matchIndex := matchIndex }
  next : node'.nextIndex.getD i 0 = node.nextIndex.getD i 0
  matched : node'.matchIndex.getD i 0 = node.matchIndex.getD i 0
  slots : node'.nextIndex.length = node.nextIndex.length ∧ node'.matchIndex.length = node.matchIndex.length

theorem SameSlot.refl (i : Nat) (node : RaftNode) : SameSlot i node node := ⟨⟨_, _, rfl⟩, rfl, rfl, rfl, rfl⟩

theorem SameSlot.trans {i : Nat} {node node' node'' : RaftNode} (h : SameSlot i node node') (h' : SameSlot i node' node'') :
    SameSlot i node node'' := by
  obtain ⟨⟨next, matched, rfl⟩, h1, h2, h3⟩ := h
  obtain ⟨⟨next', matched', rfl⟩, h1', h2', h3'⟩ := h'
  exact ⟨⟨next', matched', rfl⟩, h1'.trans h1, h2'.trans h2, h3'.1.trans h3.1, h3'.2.trans h3.2⟩

theorem handleAppendResponse_other {i j : Nat} (hij : j ≠ i) (node : RaftNode) (req : AppendRequest) (success : Bool) :
    SameSlot i node (handleAppendResponse node j req success) := by
  unfold handleAppendResponse
  split
  · refine ⟨⟨_, _, rfl⟩, ?_, ?_, List.length_set .., List.length_set ..⟩
    · simp [hij]
    · simp [hij]
  · split
    · refine ⟨⟨_, _, rfl⟩, ?_, rfl, List.length_set .., rfl⟩
      simp [hij]
    · exact .refl i node

theorem SameSlot.appendRequest {i : Nat} {node node' : RaftNode} (h : SameSlot i node node') :
    appendRequest node' i = appendRequest node i := by
  obtain ⟨⟨next, matched, rfl⟩, hnext, -, -⟩ := h
  simp only [XDevice.appendRequest, hnext]

/-- The slots behind slot `i` leave it as it is, if the node still leads at the end. -/
theorem heartbeatFrom_behind {env : HeartbeatEnv} {node node' : RaftNode} {i k : Nat} {ids : List CString} (hik : i < k)
    (hn : heartbeatFrom env node k ids = some node') (hl : node'.state = .leader) : SameSlot i node node' := by
  induction ids generalizing node k with
  | nil =>
    cases hn
    exact .refl i _
  | cons id ids ih =>
    unfold heartbeatFrom at hn
    split at hn
    · exact ih (Nat.lt_succ_of_lt hik) hn
    · obtain ⟨req, -, hn⟩ := Option.bind_eq_some_iff.1 hn
      split at hn
      · exact ih (Nat.lt_succ_of_lt hik) hn
      · rename_i resp _
        split at hn
        · cases hn
          cases hl
        · have hsame := handleAppendResponse_other (Nat.ne_of_gt hik) node req resp.success
          exact hsame.trans (ih (Nat.lt_succ_of_lt hik) hn)

/-- The node after what slot `i` alone answers. -/
def answered (env : HeartbeatEnv) (node : RaftNode) (i : Nat) (req : AppendRequest) : RaftNode :=
  match env.sendAppendEntries i req with
  | none => node
  | some resp => handleAppendResponse node i req resp.success

/-- What the loop does with slot `i` is what the answer of `i` does, if the node still leads at the end. -/
theorem heartbeatFrom_slot {env : HeartbeatEnv} {node node' : RaftNode} {i k : Nat} {ids : List CString} {id : CString}
    (hki : k ≤ i) (hids : node.clusterNodes.drop k = ids) (hid : node.clusterNodes[i]? = some id) (hne : id ≠ node.nodeId)
    (hn : heartbeatFrom env node k ids = some node') (hl : node'.state = .leader) :
    ∃ req mid, appendRequest node i = some req ∧ SameSlot i node mid ∧ SameSlot i (answered env mid i req) node' := by
  induction ids generalizing node k with
  | nil =>
    have hi : i < node.clusterNodes.length := (List.getElem?_eq_some_iff.1 hid).1
    have hk := List.drop_eq_nil_iff.1 hids
    omega
  | cons jd ids ih =>
    obtain ⟨hjd, hnext⟩ := slot_of_drop hids
    unfold heartbeatFrom at hn
    rcases Nat.eq_or_lt_of_le hki with rfl | hki
    · -- this is the slot
      obtain rfl : jd = id := Option.some.inj (hjd.symm.trans hid)
      rw [if_neg hne] at hn
      obtain ⟨req, hreq, hn⟩ := Option.bind_eq_some_iff.1 hn
      refine ⟨req, node, hreq, .refl k node, ?_⟩
      unfold answered
      cases hresp : env.sendAppendEntries k req with
      | none =>
        simp only [hresp] at hn
        exact heartbeatFrom_behind (Nat.lt_succ_self k) hn hl
      | some resp =>
        simp only [hresp] at hn
        split at hn
        · cases hn
          cases hl
        · exact heartbeatFrom_behind (Nat.lt_succ_self k) hn hl
    · split at hn
      · exact ih hki hnext hid hne hn
      · obtain ⟨req, -, hn⟩ := Option.bind_eq_some_iff.1 hn
        split at hn
        · exact ih hki hnext hid hne hn
        · rename_i resp _
          split at hn
          · cases hn
            cases hl
          · have hsame := handleAppendResponse_other (Nat.ne_of_lt hki) node req resp.success
            obtain ⟨-, how, hc⟩ := handleAppendResponse_frame node k req resp.success
            obtain ⟨req', mid, hreq', hmid, hend⟩ := ih hki (hc ▸ hnext) (hc ▸ hid) (how ▸ hne) hn
            exact ⟨req', mid, hsame.appendRequest ▸ hreq', hsame.trans hmid, hend⟩

/-! ## The search -/

/-- The search for the peer at slot `i` after `n` answers: over, or `n` indices below its start. -/
structure Searching (i : Nat) (L F : List RaftLogEntry) (node : RaftNode) (n : Nat) : Prop where
  peer : ∃ id, node.clusterNodes[i]? = some id ∧ id ≠ node.nodeId
  log : L <+: node.logEntries
  nextRoom : i < node.nextIndex.length
  matchRoom : i < node.matchIndex.length
  place : (node.matchIndex.getD i 0 = commonPrefix L F ∧ node.nextIndex.getD i 0 = commonPrefix L F + 1) ∨
    (node.matchIndex.getD i 0 = 0 ∧ commonPrefix L F + 1 ≤ node.nextIndex.getD i 0 ∧
      node.nextIndex.getD i 0 + n = L.length + 1)

section
variable {i n : Nat} {L F : List RaftLogEntry} {node node' : RaftNode}

theorem Searching.bounds (h : Searching i L F node n) :
    commonPrefix L F + 1 ≤ node.nextIndex.getD i 0 ∧ node.nextIndex.getD i 0 ≤ L.length + 1 := by
  have hp := commonPrefix_le_left L F
  rcases h.place with ⟨-, h2⟩ | ⟨-, h2, h3⟩ <;> omega

theorem Searching.findsPrefix {s : WatchedLeader} (h : Searching i L F s.node s.delivered) : FindsPrefix i L F s := by
  obtain ⟨h1, h2⟩ := h.bounds
  refine ⟨h1, h2, ?_, fun hn => ?_⟩
  · exact h.place.elim (fun hp => .inr hp.1) fun hp => .inl hp.1
  · rcases h.place with hp | ⟨-, -, hn'⟩
    · exact hp
    · omega

theorem Searching.sameSlot (h : Searching i L F node n) (hs : SameSlot i node node') : Searching i L F node' n := by
  obtain ⟨⟨next, matched, rfl⟩, hnext, hmatched, hroom⟩ := hs
  refine ⟨h.peer, h.log, hroom.1 ▸ h.nextRoom, hroom.2 ▸ h.matchRoom, ?_⟩
  rw [hnext, hmatched]
  exact h.place

/-- The follower takes what the leader asks for up to the common prefix. -/
theorem Searching.holds_iff (h : Searching i L F node n) (hm : LogMatching L F) (hL : L.length + 1 < 2 ^ 64)
    {req : AppendRequest} (hreq : appendRequest node i = some req) :
    req.prevLogIndex = node.nextIndex.getD i 0 - 1 ∧ (HoldsPrev F req ↔ node.nextIndex.getD i 0 - 1 ≤ commonPrefix L F) := by
  obtain ⟨h1, h2⟩ := h.bounds
  have hsub : sub64 (node.nextIndex.getD i 0) 1 = node.nextIndex.getD i 0 - 1 := sub64_eq (by omega) (by omega)
  have hk : node.nextIndex.getD i 0 - 1 ≤ L.length := by omega
  unfold appendRequest at hreq
  rw [hsub] at hreq
  generalize node.nextIndex.getD i 0 - 1 = k at hreq hk ⊢
  obtain ⟨term, hterm, rfl⟩ := Option.map_eq_some_iff.1 hreq
  refine ⟨rfl, ?_⟩
  unfold HoldsPrev
  rcases Nat.eq_zero_or_pos k with rfl | hpos
  · exact iff_of_true (.inl rfl) (Nat.zero_le _)
  · have hlt : k - 1 < L.length := by omega
    -- the entry asked for is one of the log at the election
    have hentry : node.logEntries[k - 1]? = L[k - 1]? := by
      obtain ⟨new, hnew⟩ := h.log
      rw [← hnew, List.getElem?_append_left hlt]
    rw [if_pos hpos, hentry] at hterm
    dsimp only
    rw [or_iff_right (Nat.ne_of_gt hpos), ← hterm, hm.term_iff hlt]
    omega

/-- One answer takes the search a step further. -/
theorem Searching.answered (h : Searching i L F node n) (hm : LogMatching L F) (hL : L.length + 1 < 2 ^ 64)
    {env : HeartbeatEnv} {req : AppendRequest} (hreq : appendRequest node i = some req)
    (hans : ∀ resp, env.sendAppendEntries i req = some resp → (resp.success = true ↔ HoldsPrev F req)) :
    Searching i L F (answered env node i req) (n + if (env.sendAppendEntries i req).isSome then 1 else 0) := by
  obtain ⟨hprev, hholds⟩ := h.holds_iff hm hL hreq
  obtain ⟨h1, h2⟩ := h.bounds
  unfold XDevice.answered
  cases hresp : env.sendAppendEntries i req with
  | none => exact h
  | some resp =>
    have hsuccess := (hans resp hresp).trans hholds
    rw [Option.isSome_some, if_pos rfl]
    unfold handleAppendResponse
    dsimp only
    split
    · rename_i hyes
      have hfound := hsuccess.1 hyes
      refine ⟨h.peer, h.log, ?_, ?_, .inl ?_⟩
      · exact Nat.lt_of_lt_of_eq h.nextRoom (List.length_set ..).symm
      · exact Nat.lt_of_lt_of_eq h.matchRoom (List.length_set ..).symm
      · rw [hprev, add64_eq (by omega)]
        simp only [getD_set_nat, h.nextRoom, h.matchRoom, and_self, if_true]
        omega
    · rename_i hno
      have hover : ¬ node.nextIndex.getD i 0 - 1 ≤ commonPrefix L F := fun hle => hno (hsuccess.2 hle)
      rw [if_pos (by omega)]
      refine ⟨h.peer, h.log, Nat.lt_of_lt_of_eq h.nextRoom (List.length_set ..).symm, h.matchRoom, .inr ?_⟩
      simp only [getD_set_nat, h.nextRoom, and_self, if_true]
      rcases h.place with ⟨-, hend⟩ | ⟨hzero, hnext, hcount⟩
      · omega
      · exact ⟨hzero, by omega, by omega⟩

end

/-! ## The leadership -/

/-- A leader whose arrays are in order, searching the log of its peer at slot `i`. -/
structure LeaderOk (i : Nat) (L F : List RaftLogEntry) (s : WatchedLeader) : Prop where
  ok : NodeOk s.node
  window : IndexWindow s.node
  leads : s.node.state = .leader
  search : Searching i L F s.node s.delivered

section
variable {i : Nat} {L F : List RaftLogEntry} {s : WatchedLeader}

theorem delivered_due {env : HeartbeatEnv} {node : RaftNode} {req : AppendRequest}
    (hdue : node.state = .leader ∧ raftHeartbeatIntervalMs ≤ sub64 env.now node.lastHeartbeat)
    (hreq : appendRequest node i = some req) :
    delivered i node (.heartbeat env) = if (env.sendAppendEntries i req).isSome then 1 else 0 := by
  simp only [delivered, hreq, Option.bind_some, hdue.1, hdue.2, true_and]

theorem delivered_not_due {env : HeartbeatEnv} {node : RaftNode}
    (hdue : ¬ (node.state = .leader ∧ raftHeartbeatIntervalMs ≤ sub64 env.now node.lastHeartbeat)) :
    delivered i node (.heartbeat env) = 0 :=
  if_neg fun h => hdue ⟨h.1, h.2.1⟩

/-- An iteration of the heartbeat thread takes the search as far as the peer answers it. -/
theorem Searching.heartbeat {env : HeartbeatEnv} {node' : RaftNode} (h : Searching i L F s.node s.delivered)
    (hm : LogMatching L F) (hL : L.length + 1 < 2 ^ 64) (hsteady : Steady F i s (.heartbeat env))
    (hn : heartbeatIteration env s.node = some node') (hl : node'.state = .leader) :
    Searching i L F node' (s.delivered + delivered i s.node (.heartbeat env)) := by
  obtain ⟨id, hid, hne⟩ := h.peer
  unfold heartbeatIteration at hn
  split at hn
  · rename_i hdue
    obtain ⟨last, hlast, rfl⟩ := Option.map_eq_some_iff.1 hn
    obtain ⟨req, mid, hreq, hmid, hend⟩ := heartbeatFrom_slot (Nat.zero_le i) List.drop_zero hid hne hlast hl
    have hbefore := h.sameSlot hmid
    have hanswer := hbefore.answered hm hL (hmid.appendRequest.trans hreq) fun resp => hsteady req resp hreq
    have hafter := hanswer.sameSlot hend
    rw [delivered_due hdue hreq]
    exact ⟨hafter.peer, hafter.log, hafter.nextRoom, hafter.matchRoom, hafter.place⟩
  · rename_i hdue
    cases hn
    rw [delivered_not_due hdue]
    exact h

theorem leaderOk_step (h : LeaderOk i L F s) (hm : LogMatching L F) (hL : L.length + 1 < 2 ^ 64) {a : RaftStep}
    (ha : Steady F i s a) :
    ∃ s' code, (backOffMachine i).step s a = some (s', code) ∧ (s'.node.state = .leader → LeaderOk i L F s') := by
  have hlate : NoLateAdd s.node a := by
    cases a with
    | addNode newNode => exact fun _ hroom => absurd ha (Nat.not_le.2 hroom)
    | election | heartbeat | appendLog => trivial
  obtain ⟨node', code, hs, hok, hwin⟩ := nodeMachine_ok h.ok h.window hlate
  refine ⟨⟨node', s.delivered + delivered i s.node a⟩, code, ?_, fun hl => ?_⟩
  · exact Option.map_eq_some_iff.2 ⟨_, hs, rfl⟩
  refine ⟨hok, hwin, hl, ?_⟩
  dsimp only at hl ⊢
  cases a with
  | election env =>
    obtain rfl : electionIteration env s.node = node' := congrArg Prod.fst (Option.some.inj hs)
    -- a leader does not stand again
    rcases electionIteration_cases env s.node with he | ⟨hno, -⟩
    · rw [he]
      exact h.search
    · exact absurd h.leads hno
  | heartbeat env =>
    obtain ⟨node'', hn, he⟩ := Option.map_eq_some_iff.1 hs
    cases he
    exact h.search.heartbeat hm hL ha hn hl
  | appendLog env data =>
    obtain rfl : (xdeviceRaftAppendLog env s.node data).1 = node' := congrArg Prod.fst (Option.some.inj hs)
    have hlog := appendLog_log env s.node data
    obtain ⟨logEntries, logCapacity, he⟩ := appendLog_changes env s.node data
    rw [he] at hlog ⊢
    exact ⟨h.search.peer, h.search.log.trans hlog, h.search.nextRoom, h.search.matchRoom, h.search.place⟩
  | addNode newNode =>
    obtain rfl : (xdeviceRaftAddNodeToCluster s.node newNode).1 = node' := congrArg Prod.fst (Option.some.inj hs)
    have hfull : xdeviceMaxNodes ≤ s.node.clusterSize := ha
    unfold xdeviceRaftAddNodeToCluster
    rw [if_pos hfull]
    exact h.search

end

/-! ## The election -/

/-- A node that wins starts every search one past its log. -/
theorem electionIteration_won {env : ElectionEnv} {node leader : RaftNode} (h : NodeOk node) (hs : node.state ≠ .leader)
    (helect : electionIteration env node = leader) (hl : leader.state = .leader) {i : Nat} (hi : i < node.clusterSize) :
    leader.logEntries = node.logEntries ∧ leader.clusterNodes = node.clusterNodes ∧ leader.nodeId = node.nodeId ∧
      i < leader.matchIndex.length ∧ leader.matchIndex.getD i 0 = 0 ∧
      leader.nextIndex.getD i 0 = node.logSize + 1 := by
  rcases electionIteration_cases env node with he | ⟨-, he | ⟨term, clock, he⟩⟩
  · exact absurd (he ▸ helect ▸ hl) hs
  · rw [he] at helect
    unfold finishElection at helect
    split at helect
    · subst helect
      refine ⟨rfl, rfl, rfl, ?_, getD_replicate_append hi _ _, ?_⟩
      · rw [List.length_append, List.length_replicate]
        exact Nat.lt_add_right _ hi
      · exact (getD_replicate_append hi _ _).trans (add64_eq h.logSize_lt)
    · subst helect
      cases hl
  · rw [he] at helect
    subst helect
    cases hl

theorem leaderOk_elected {env : ElectionEnv} {node leader : RaftNode} (h : NodeOk node) (hs : node.state ≠ .leader)
    (helect : electionIteration env node = leader) (hl : leader.state = .leader) {i : Nat} {id : CString}
    (hid : node.clusterNodes[i]? = some id) (hne : id ≠ node.nodeId) (F : List RaftLogEntry) :
    LeaderOk i leader.logEntries F ⟨leader, 0⟩ ∧ leader.logEntries.length + 1 < 2 ^ 64 := by
  have hi : i < node.clusterSize := (List.getElem?_eq_some_iff.1 hid).1
  obtain ⟨hok, hwin⟩ := electionIteration_ok h (.of_not_leader hs) env
  obtain ⟨hlog, hnodes, hown, hroom, hmatch, hnext⟩ := electionIteration_won h hs helect hl hi
  rw [helect] at hok hwin
  refine ⟨⟨hok, hwin, hl, ⟨id, ?_, ?_⟩, List.prefix_rfl, ?_, hroom, .inr ⟨hmatch, ?_, ?_⟩⟩, hok.logSize_lt⟩
  · exact hnodes ▸ hid
  · exact hown ▸ hne
  · dsimp only
    rw [hok.indices, ← h.indices]
    exact Nat.lt_of_lt_of_le hi (h.indices ▸ h.slots)
  · have hp := commonPrefix_le_left leader.logEntries F
    dsimp only
    rw [hnext, RaftNode.logSize, ← hlog]
    exact Nat.add_le_add_right hp 1
  · dsimp only
    rw [hnext, RaftNode.logSize, ← hlog]

/-! ## Main theorem -/

/-- As long as a leader leads, with its members as they were at the election, the next index
of a peer whose log matches stays between the common prefix and the log at the election; it
is at the end of the common prefix, and known to match, once the peer has answered as many
heartbeats as the log at the election is longer, and one more. Whatever is appended and
whichever answers are lost, no step is undefined. -/
theorem back_off_finds_prefix {avail : Bool} {clock : Clock} {nodeId : CString} {created node leader : RaftNode}
    (hcreate : xdeviceRaftCreateNode avail clock nodeId = some created) {before : List RaftStep}
    {codes : List XdeviceError} (hbefore : nodeMachine.run created before = some (node, codes)) {env : ElectionEnv}
    (hs : node.state ≠ .leader) (helect : electionIteration env node = leader) {i : Nat} {id : CString}
    (hid : node.clusterNodes[i]? = some id) (hne : id ≠ node.nodeId) {F : List RaftLogEntry}
    (hmatch : LogMatching leader.logEntries F) {steps : List RaftStep}
    (hlead : (backOffMachine i).Always (fun s => s.node.state = .leader) ⟨leader, 0⟩ steps)
    (hsteady : (backOffMachine i).Along (Steady F i) ⟨leader, 0⟩ steps) :
    (backOffMachine i).run ⟨leader, 0⟩ steps ≠ none ∧
      (backOffMachine i).Always (FindsPrefix i leader.logEntries F) ⟨leader, 0⟩ steps := by
  have hok : NodeOk node := nodeMachine_keeps.run (nodeOk_create hcreate).1 hbefore
  obtain ⟨h0, hL⟩ := leaderOk_elected hok hs helect hlead.head hid hne F
  obtain ⟨⟨s', codes', hr, -⟩, hevery⟩ := Machine.always_of_along
    (fun s a h ha => leaderOk_step h hmatch hL ha) (fun s h => h.search.findsPrefix) h0 hsteady hlead
  refine ⟨?_, hevery⟩
  rw [hr]
  exact nofun

/-- A peer with the log `F`, or one that is not reached. -/
def followerEnv (now : Nat) (F : Option (List RaftLogEntry)) : HeartbeatEnv where
  now := now
  sendAppendEntries _ req := F.map fun F => ⟨req.term, HoldsPrev F req⟩
  stepClock _ := ⟨0, 0⟩

/-- Two entries of the first term, and a response from the fifth. -/
def twoEntries : List RaftStep :=
  [.addNode (cstr "B"), .election (votesEnv true), .appendLog ⟨true, true⟩ [1], .appendLog ⟨true, true⟩ [2],
    .heartbeat { followerEnv 2000 none with sendAppendEntries := fun _ _ => some ⟨5, false⟩ }]

theorem twoEntries_runs : (nodeMachine.run newNodeA twoEntries).isSome := by decide

/-- "A" after its first leadership. -/
def formerLeaderA : RaftNode × List XdeviceError := (nodeMachine.run newNodeA twoEntries).get twoEntries_runs

/-- The first of the two entries, then one of another leader. -/
def divergedLog : List RaftLogEntry := [⟨1, 1, [1]⟩, ⟨3, 2, [3]⟩]

/-- A refusal, an answer that is lost, an entry of the new term, an agreement. -/
def backOffSteps : List RaftStep :=
  [.heartbeat (followerEnv 3000 (some divergedLog)), .heartbeat (followerEnv 3100 none), .appendLog ⟨true, true⟩ [4],
    .heartbeat (followerEnv 3200 (some divergedLog))]

theorem steady_follower (now : Nat) (F : List RaftLogEntry) (i : Nat) (s : WatchedLeader) :
    Steady F i s (.heartbeat (followerEnv now (some F))) := by
  intro req resp _ hresp
  cases hresp
  exact decide_eq_true_iff

theorem steady_lost (now : Nat) (F : List RaftLogEntry) (i : Nat) (s : WatchedLeader) :
    Steady F i s (.heartbeat (followerEnv now none)) := by
  intro req resp _ hresp
  cases hresp

/-- Two answers are enough to go back from the second entry to the first. -/
theorem diverged_prefix_found :
    (backOffMachine 0).run ⟨electionIteration (votesEnv true) formerLeaderA.1, 0⟩ backOffSteps ≠ none ∧
      (backOffMachine 0).Always
        (FindsPrefix 0 (electionIteration (votesEnv true) formerLeaderA.1).logEntries divergedLog)
        ⟨electionIteration (votesEnv true) formerLeaderA.1, 0⟩ backOffSteps := by
  have hrun : nodeMachine.run newNodeA twoEntries = some (formerLeaderA.1, formerLeaderA.2) :=
    (Option.some_get twoEntries_runs).symm
  have hid : formerLeaderA.1.clusterNodes[0]? = some (cstr "B") := by decide
  have hlog : (electionIteration (votesEnv true) formerLeaderA.1).logEntries = [⟨1, 1, [1]⟩, ⟨1, 2, [2]⟩] := by decide
  refine back_off_finds_prefix newNodeA_created hrun (by decide) rfl hid (by decide) ?_ (by decide) ?_
  · rw [hlog]
    intro k e e' he he' hterm
    rcases k with _ | _ | k
    · rfl
    · cases he
      cases he'
      exact absurd hterm (by decide)
    · cases he
  · refine ⟨steady_follower 3000 divergedLog 0 _, fun _ _ _ => ⟨steady_lost 3100 divergedLog 0 _, ?_⟩⟩
    exact fun _ _ _ => ⟨trivial, fun _ _ _ => ⟨steady_follower 3200 divergedLog 0 _, fun _ _ _ => trivial⟩⟩

end XDevice
