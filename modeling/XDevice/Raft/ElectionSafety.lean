import XDevice.Raft.Cluster
/-!
# Election safety

A candidate's counter never runs ahead of the ledger: the votes counted so far
are those of as many different nodes, its own and some in the slots already
passed. A leader therefore has a majority in the ledger, and two majorities of
one term name the same candidate when every voter votes once.
-/
open Lib

namespace XDevice

/-! ## Invariant -/

/-- Every node in `s` voted for `candidate` in `term`. -/
def VotedFor (votes : List (CString × Nat × CString)) (term : Nat) (candidate : CString) (s : Finset CString) : Prop :=
  ∀ v ∈ s, (v, term, candidate) ∈ votes

/-- While `id` is a candidate, its `n` counted votes are those of `n` nodes: its own
and others in the slots before `slot`. -/
def Tally (ids : List CString) (votes : List (CString × Nat × CString)) (id : CString) (node : RaftNode)
    (n slot : Nat) : Prop :=
  node.state = .candidate → ∃ s : Finset CString, s.card = n ∧ s ⊆ insert id (ids.take slot).toFinset ∧
    VotedFor votes node.currentTerm id s

/-- What holds of the counter and the last request in each phase. -/
def PhaseOk (ids : List CString) (votes : List (CString × Nat × CString)) (id : CString) (node : RaftNode) :
    ElectionPhase → Prop
  | .idle => True
  | .polling n slot => node.state ≠ .leader ∧ Tally ids votes id node n slot
  | .awaiting n slot peer req =>
    node.state ≠ .leader ∧ Tally ids votes id node n slot ∧ ids[slot]? = some peer ∧ peer ≠ id ∧
      (node.state = .candidate → req.term = node.currentTerm ∧ req.candidateId = id)

structure MemberOk (ids : List CString) (votes : List (CString × Nat × CString)) (id : CString)
    (m : ClusterMember) : Prop where
  own : m.node.nodeId = id
  slots : m.node.clusterNodes = ids
  leading : m.node.state = .leader → ∃ s, IsMajority ids.toFinset s ∧ VotedFor votes m.node.currentTerm id s
  phase : PhaseOk ids votes id m.node m.phase

structure ClusterOk (ids : List CString) (c : RaftCluster) : Prop where
  members : ∀ id ∈ ids, MemberOk ids c.votes id (c.member id)
  granted : ∀ voter req, (voter, req) ∈ c.granted → (voter, req.term, req.candidateId) ∈ c.votes

section
variable {ids : List CString} {votes votes' : List (CString × Nat × CString)} {id : CString}

theorem VotedFor.mono {term : Nat} {s : Finset CString} (h : VotedFor votes term id s) (hsub : votes ⊆ votes') :
    VotedFor votes' term id s := fun v hv => hsub (h v hv)

theorem Tally.mono {node : RaftNode} {n slot : Nat} (h : Tally ids votes id node n slot) (hsub : votes ⊆ votes') :
    Tally ids votes' id node n slot := by
  intro hc
  obtain ⟨s, hcard, hs, hv⟩ := h hc
  exact ⟨s, hcard, hs, hv.mono hsub⟩

theorem PhaseOk.mono {node : RaftNode} {phase : ElectionPhase} (h : PhaseOk ids votes id node phase)
    (hsub : votes ⊆ votes') : PhaseOk ids votes' id node phase := by
  cases phase with
  | idle => trivial
  | polling n slot => exact ⟨h.1, h.2.mono hsub⟩
  | awaiting n slot peer req => exact ⟨h.1, h.2.1.mono hsub, h.2.2⟩

theorem MemberOk.mono {m : ClusterMember} (h : MemberOk ids votes id m) (hsub : votes ⊆ votes') :
    MemberOk ids votes' id m where
  own := h.own
  slots := h.slots
  leading hl := by
    obtain ⟨s, hmaj, hv⟩ := h.leading hl
    exact ⟨s, hmaj, hv.mono hsub⟩
  phase := h.phase.mono hsub

/-! ## Steps that give no lead -/

/-- Another node state with the same identity, and the same role in the same term
or a follower's. -/
structure KeepsRole (node node' : RaftNode) : Prop where
  own : node'.nodeId = node.nodeId
  slots : node'.clusterNodes = node.clusterNodes
  role : node'.state = node.state ∧ node'.currentTerm = node.currentTerm ∨ node'.state = .follower

theorem KeepsRole.refl (node : RaftNode) : KeepsRole node node := ⟨rfl, rfl, .inl ⟨rfl, rfl⟩⟩

theorem KeepsRole.trans {n1 n2 n3 : RaftNode} (h : KeepsRole n1 n2) (h' : KeepsRole n2 n3) : KeepsRole n1 n3 := by
  refine ⟨h'.own.trans h.own, h'.slots.trans h.slots, ?_⟩
  rcases h'.role with ⟨hs, ht⟩ | hf
  · rcases h.role with ⟨hs', ht'⟩ | hf'
    · exact .inl ⟨hs.trans hs', ht.trans ht'⟩
    · exact .inr (hs.trans hf')
  · exact .inr hf

/-- Such a step keeps what is known of the node. -/
theorem MemberOk.keepsRole {m : ClusterMember} (h : MemberOk ids votes id m) {node' : RaftNode}
    (hr : KeepsRole m.node node') : MemberOk ids votes id ⟨node', m.phase⟩ := by
  refine ⟨hr.own.trans h.own, hr.slots.trans h.slots, ?_, ?_⟩
  · intro hl
    dsimp only at hl ⊢
    rcases hr.role with ⟨hs, ht⟩ | hf
    · rw [ht]
      exact h.leading (hs ▸ hl)
    · rw [hf] at hl
      cases hl
  · have hlead : m.node.state ≠ .leader → node'.state ≠ .leader := by
      rcases hr.role with ⟨hs, -⟩ | hf
      · rw [hs]; exact fun h => h
      · rw [hf]; exact fun _ => nofun
    have htally : ∀ n slot, Tally ids votes id m.node n slot → Tally ids votes id node' n slot := by
      intro n slot ht hc
      rcases hr.role with ⟨hs, he⟩ | hf
      · rw [he]
        exact ht (hs ▸ hc)
      · rw [hf] at hc
        cases hc
    have hp := h.phase
    revert hp
    cases m.phase with
    | idle => exact fun h => h
    | polling n slot => exact fun hp => ⟨hlead hp.1, htally n slot hp.2⟩
    | awaiting n slot peer req =>
      intro hp
      obtain ⟨h1, h2, h3, h4, h5⟩ := hp
      refine ⟨hlead h1, htally n slot h2, h3, h4, fun hc => ?_⟩
      rcases hr.role with ⟨hs, he⟩ | hf
      · rw [he]
        exact h5 (hs ▸ hc)
      · rw [hf] at hc
        cases hc

theorem keepsRole_stepDown (node : RaftNode) (term : Nat) (clock : Clock) : KeepsRole node (stepDown node term clock) :=
  ⟨rfl, rfl, .inr rfl⟩

theorem keepsRole_voterUpdate (node : RaftNode) (term : Nat) (demote : Bool) (votedFor : CString) (timeout : Nat) :
    KeepsRole node (voterUpdate node term demote votedFor timeout) := by
  refine ⟨rfl, rfl, ?_⟩
  by_cases h : node.currentTerm < term ∨ demote
  · exact .inr (if_pos h)
  · refine .inl ⟨if_neg h, ?_⟩
    simp only [voterUpdate]
    omega

theorem keepsRole_handleAppendResponse (node : RaftNode) (i : Nat) (req : AppendRequest) (success : Bool) :
    KeepsRole node (handleAppendResponse node i req success) := by
  obtain ⟨nextIndex, matchIndex, he⟩ := handleAppendResponse_changes node i req success
  rw [he]
  exact ⟨rfl, rfl, .inl ⟨rfl, rfl⟩⟩

theorem keepsRole_heartbeatFrom {env : HeartbeatEnv} {node node' : RaftNode} {i : Nat} {slots : List CString}
    (h : heartbeatFrom env node i slots = some node') : KeepsRole node node' := by
  induction slots generalizing node i with
  | nil =>
    cases h
    exact .refl _
  | cons peer slots ih =>
    unfold heartbeatFrom at h
    split at h
    · exact ih h
    · obtain ⟨req, -, h⟩ := Option.bind_eq_some_iff.1 h
      split at h
      · exact ih h
      · split at h
        · cases h
          exact keepsRole_stepDown _ _ _
        · exact (keepsRole_handleAppendResponse _ _ _ _).trans (ih h)

theorem keepsRole_heartbeat {env : HeartbeatEnv} {node node' : RaftNode}
    (h : heartbeatIteration env node = some node') : KeepsRole node node' := by
  unfold heartbeatIteration at h
  split at h
  · obtain ⟨node1, h1, rfl⟩ := Option.map_eq_some_iff.1 h
    exact (keepsRole_heartbeatFrom h1).trans ⟨rfl, rfl, .inl ⟨rfl, rfl⟩⟩
  · cases h
    exact .refl _

theorem keepsRole_appendLog (env : AppendEnv) (node : RaftNode) (data : Bytes) :
    KeepsRole node (xdeviceRaftAppendLog env node data).1 := by
  obtain ⟨logEntries, logCapacity, he⟩ := appendLog_changes env node data
  rw [he]
  exact ⟨rfl, rfl, .inl ⟨rfl, rfl⟩⟩

/-! ## Steps of an election -/

theorem memberOk_start {m : ClusterMember} (h : MemberOk ids votes id m) (clock : Clock) :
    MemberOk ids ((id, (startElection m.node clock).currentTerm, id) :: votes) id
      ⟨startElection m.node clock, .polling 1 0⟩ where
  own := h.own
  slots := h.slots
  leading := nofun
  phase := by
    refine ⟨nofun, fun _ => ⟨{id}, Finset.card_singleton id, by simp, fun v hv => ?_⟩⟩
    rw [Finset.mem_singleton.1 hv]
    exact List.mem_cons_self

/-- Leaving the loop: who leads now has counted a majority. -/
theorem memberOk_finish {node : RaftNode} (hid : id ∈ ids) (hn : ids.Nodup) (own : node.nodeId = id)
    (slots : node.clusterNodes = ids) (hl : node.state ≠ .leader) {n slot : Nat}
    (ht : Tally ids votes id node n slot) : MemberOk ids votes id ⟨finishElection node n, .idle⟩ := by
  unfold finishElection
  split
  · rename_i hwin
    obtain ⟨s, hcard, hs, hv⟩ := ht hwin.1
    refine ⟨own, slots, fun _ => ⟨s, ⟨fun v hvs => ?_, ?_⟩, hv⟩, trivial⟩
    · rcases Finset.mem_insert.1 (hs hvs) with rfl | hmem
      · exact List.mem_toFinset.2 hid
      · exact List.mem_toFinset.2 (List.mem_of_mem_take (List.mem_toFinset.1 hmem))
    · have hlt := hwin.2
      rw [RaftNode.clusterSize, slots] at hlt
      rw [List.toFinset_card_of_nodup hn, hcard]
      omega
  · exact ⟨own, slots, fun h => absurd h hl, trivial⟩

/-- Going on to the next slot without a vote. -/
theorem Tally.next {node : RaftNode} {n slot : Nat} (h : Tally ids votes id node n slot) :
    Tally ids votes id node n (slot + 1) := by
  intro hc
  obtain ⟨s, hcard, hs, hv⟩ := h hc
  refine ⟨s, hcard, fun v hvs => ?_, hv⟩
  rcases Finset.mem_insert.1 (hs hvs) with rfl | hmem
  · exact Finset.mem_insert_self _ _
  · refine Finset.mem_insert_of_mem (List.mem_toFinset.2 ?_)
    exact (List.take_sublist_take_left (Nat.le_succ slot)).mem (List.mem_toFinset.1 hmem)

/-- Going on with the vote of the peer in this slot, who is not among those counted. -/
theorem Tally.vote {node : RaftNode} {n slot : Nat} (h : Tally ids votes id node n slot) (hn : ids.Nodup)
    {peer : CString} (hpeer : ids[slot]? = some peer) (hne : peer ≠ id)
    (hv : node.state = .candidate → (peer, node.currentTerm, id) ∈ votes) :
    Tally ids votes id node (n + 1) (slot + 1) := by
  intro hc
  obtain ⟨s, hcard, hs, hvs⟩ := h hc
  obtain ⟨hlt, hget⟩ := List.getElem?_eq_some_iff.1 hpeer
  have htake : ids.take (slot + 1) = ids.take slot ++ [peer] := by
    rw [List.take_add_one, hpeer, Option.toList_some]
  have hnew : peer ∉ s := by
    intro hmem
    rcases Finset.mem_insert.1 (hs hmem) with he | hmem
    · exact hne he
    · have hnd := (hn.sublist (List.take_sublist (slot + 1) ids))
      rw [htake] at hnd
      exact (List.nodup_append.1 hnd).2.2 peer (List.mem_toFinset.1 hmem) peer (List.mem_singleton.2 rfl) rfl
  refine ⟨insert peer s, by rw [Finset.card_insert_of_notMem hnew, hcard], fun v hvm => ?_, fun v hvm => ?_⟩
  · rcases Finset.mem_insert.1 hvm with rfl | hvm
    · exact Finset.mem_insert_of_mem (by simp [htake])
    · rcases Finset.mem_insert.1 (hs hvm) with rfl | hmem
      · exact Finset.mem_insert_self _ _
      · exact Finset.mem_insert_of_mem (by simp [htake, List.mem_toFinset.1 hmem])
  · rcases Finset.mem_insert.1 hvm with rfl | hvm
    · exact hv hc
    · exact hvs v hvm

section
variable {node node' : RaftNode} {clock : Clock} {n n' slot : Nat} {peer : CString} {req : VoteRequest}
  {resp : VoteResponse}

/-- A response with a higher term leaves no candidate. -/
theorem handleVoteResponse_stop (h : handleVoteResponse node clock n resp = (node', n', false)) :
    KeepsRole node node' ∧ node'.state = .follower := by
  unfold handleVoteResponse at h
  dsimp only at h
  split at h
  · cases h
    exact ⟨keepsRole_stepDown _ _ _, rfl⟩
  · cases h

/-- Any other response leaves the node as it is, its vote counted if it has one. -/
theorem handleVoteResponse_next (hn : ids.Nodup) (hp : PhaseOk ids votes id node (.awaiting n slot peer req))
    (hgrant : resp.voteGranted → (peer, req.term, req.candidateId) ∈ votes)
    (h : handleVoteResponse node clock n resp = (node', n', true)) :
    node' = node ∧ node.state ≠ .leader ∧ Tally ids votes id node n' (slot + 1) := by
  obtain ⟨hl, ht, hpeer, hne, hreq⟩ := hp
  unfold handleVoteResponse at h
  dsimp only at h
  split at h
  · cases h
  · cases h
    refine ⟨rfl, hl, ?_⟩
    split
    · rename_i hg
      refine ht.vote hn hpeer hne fun hc => ?_
      obtain ⟨hterm, hcand⟩ := hreq hc
      exact hterm ▸ hcand ▸ hgrant hg
    · exact ht.next

end

end

/-! ## One step of the cluster -/

section
variable {ids : List CString} {c c' : RaftCluster}

/-- One member changed and votes added. -/
theorem ClusterOk.update (h : ClusterOk ids c) {id : CString} {m : ClusterMember}
    (hm : id ∈ ids → MemberOk ids c'.votes id m) (hmember : c'.member = (c.setMember id m).member)
    (hvotes : c.votes ⊆ c'.votes) (hgranted : c'.granted = c.granted) : ClusterOk ids c' where
  members id' hid' := by
    rw [hmember]
    simp only [RaftCluster.setMember]
    split
    · rename_i he
      subst he
      exact hm hid'
    · exact (h.members id' hid').mono hvotes
  granted voter req hr := hvotes (h.granted voter req (hgranted ▸ hr))

theorem clusterOk_sendVoteRequest (hn : ids.Nodup) (h : ClusterOk ids c) {id : CString}
    (hs : clusterStep c (.sendVoteRequest id) = some c') : ClusterOk ids c' ∧ c.votes ⊆ c'.votes := by
  have hrefl : c.votes ⊆ c.votes := List.Subset.refl _
  simp only [clusterStep, sendVoteRequestStep] at hs
  split at hs
  · rename_i votes slot hphase
    have hmem : id ∈ ids → MemberOk ids c.votes id (c.member id) ∧ (c.member id).node.state ≠ .leader ∧
        Tally ids c.votes id (c.member id).node votes slot := by
      intro hid
      have hm := h.members id hid
      have hp := hm.phase
      rw [hphase] at hp
      exact ⟨hm, hp.1, hp.2⟩
    split at hs
    · cases hs
      refine ⟨h.update (fun hid => ?_) rfl hrefl rfl, hrefl⟩
      obtain ⟨hm, hl, ht⟩ := hmem hid
      exact memberOk_finish hid hn hm.own hm.slots hl ht
    · rename_i peer hpeer
      split at hs
      · cases hs
        refine ⟨h.update (fun hid => ?_) rfl hrefl rfl, hrefl⟩
        obtain ⟨hm, hl, ht⟩ := hmem hid
        exact ⟨hm.own, hm.slots, hm.leading, hl, ht.next⟩
      · rename_i hne
        cases hs
        refine ⟨h.update (fun hid => ?_) rfl hrefl rfl, hrefl⟩
        obtain ⟨hm, hl, ht⟩ := hmem hid
        rw [hm.slots] at hpeer
        rw [hm.own] at hne
        exact ⟨hm.own, hm.slots, hm.leading, hl, ht, hpeer, hne, fun _ => ⟨rfl, hm.own⟩⟩
  · cases hs

theorem clusterOk_voteResponse (hn : ids.Nodup) (h : ClusterOk ids c) {id : CString} {resp : Option VoteResponse}
    {clock : Clock} (hs : clusterStep c (.voteResponse id resp clock) = some c') :
    ClusterOk ids c' ∧ c.votes ⊆ c'.votes := by
  have hrefl : c.votes ⊆ c.votes := List.Subset.refl _
  simp only [clusterStep, voteResponseStep] at hs
  split at hs
  · rename_i votes slot peer req hphase
    have hmem : id ∈ ids → MemberOk ids c.votes id (c.member id) ∧
        PhaseOk ids c.votes id (c.member id).node (.awaiting votes slot peer req) := by
      intro hid
      have hm := h.members id hid
      exact ⟨hm, hphase ▸ hm.phase⟩
    split at hs
    · cases hs
      refine ⟨h.update (fun hid => ?_) rfl hrefl rfl, hrefl⟩
      obtain ⟨hm, hl, ht, -⟩ := hmem hid
      exact ⟨hm.own, hm.slots, hm.leading, hl, ht.next⟩
    · rename_i resp
      split at hs
      · cases hs
      · rename_i hback
        -- a granted answer is in the ledger
        have hgrant : resp.voteGranted → (peer, req.term, req.candidateId) ∈ c.votes := by
          intro hg
          by_contra hv
          exact hback ⟨hg, fun hgr => hv (h.granted peer req hgr)⟩
        split at hs <;> rename_i node' votes' hresp <;> cases hs <;>
          refine ⟨h.update (fun hid => ?_) rfl hrefl rfl, hrefl⟩ <;> obtain ⟨hm, hp⟩ := hmem hid
        · obtain ⟨hr, hf⟩ := handleVoteResponse_stop hresp
          have ht : Tally ids c.votes id node' votes' slot := fun hc => by simp [hf] at hc
          exact memberOk_finish hid hn (hr.own.trans hm.own) (hr.slots.trans hm.slots) (by simp [hf]) ht
        · obtain ⟨rfl, hl, ht⟩ := handleVoteResponse_next hn hp hgrant hresp
          exact ⟨hm.own, hm.slots, hm.leading, hl, ht⟩
  · cases hs

theorem clusterOk_step (hn : ids.Nodup) (h : ClusterOk ids c) {a : ClusterStep} (hs : clusterStep c a = some c') :
    ClusterOk ids c' ∧ c.votes ⊆ c'.votes := by
  have hrefl : c.votes ⊆ c.votes := List.Subset.refl _
  cases a with
  | electionStart id now clock =>
    simp only [clusterStep, electionStartStep] at hs
    split at hs
    · cases hs
    · split at hs
      · cases hs
        refine ⟨h.update (fun hid => ?_) rfl (List.subset_cons_self _ _) rfl, List.subset_cons_self _ _⟩
        have hown := (h.members id hid).own
        have := memberOk_start (h.members id hid) clock
        simpa only [startElection, resetElectionTimer, hown] using this
      · cases hs
        exact ⟨h, hrefl⟩
  | sendVoteRequest id => exact clusterOk_sendVoteRequest hn h hs
  | grantVote voter req =>
    simp only [clusterStep, grantVoteStep] at hs
    split at hs
    · cases hs
      have hsub : c.votes ⊆ (voter, req.term, req.candidateId) :: c.votes := List.subset_cons_self _ _
      refine ⟨⟨fun id hid => (h.members id hid).mono hsub, fun v r hr => ?_⟩, hsub⟩
      rcases List.mem_cons.1 hr with he | hr
      · cases he
        exact List.mem_cons_self
      · exact hsub (h.granted v r hr)
    · cases hs
  | voteResponse id resp clock => exact clusterOk_voteResponse hn h hs
  | voterUpdate id term demote votedFor timeout =>
    cases hs
    exact ⟨h.update (fun hid => (h.members id hid).keepsRole (keepsRole_voterUpdate _ _ _ _ _)) rfl hrefl rfl, hrefl⟩
  | heartbeat id env =>
    simp only [clusterStep] at hs
    split at hs
    · obtain ⟨node, hnode, rfl⟩ := Option.map_eq_some_iff.1 hs
      exact ⟨h.update (fun hid => (h.members id hid).keepsRole (keepsRole_heartbeat hnode)) rfl hrefl rfl, hrefl⟩
    · cases hs
  | appendLog id env data =>
    simp only [clusterStep] at hs
    split at hs
    · cases hs
      exact ⟨h.update (fun hid => (h.members id hid).keepsRole (keepsRole_appendLog _ _ _)) rfl hrefl rfl, hrefl⟩
    · cases hs

end

/-! ## Whole runs -/

theorem addAll_clusterNodes {node : RaftNode} {ids : List CString}
    (h : node.clusterSize + ids.length ≤ xdeviceMaxNodes) :
    (addAll node ids).clusterNodes = node.clusterNodes ++ ids := by
  induction ids generalizing node with
  | nil => simp [addAll]
  | cons id ids ih =>
    simp only [RaftNode.clusterSize, List.length_cons] at h
    have hadd : (xdeviceRaftAddNodeToCluster node id).1 = { node with clusterNodes := node.clusterNodes ++ [id] } := by
      rw [xdeviceRaftAddNodeToCluster, if_neg (by simp only [RaftNode.clusterSize]; omega)]
    have hstep : addAll node (id :: ids) = addAll (xdeviceRaftAddNodeToCluster node id).1 ids := rfl
    rw [hstep, hadd, ih (by simp only [RaftNode.clusterSize, List.length_append, List.length_singleton]; omega)]
    simp

theorem clusterOk_started {ids : List CString} {c : RaftCluster} (hlen : ids.length ≤ xdeviceMaxNodes)
    (hids : ∀ id ∈ ids, id.length < xdeviceMaxNodeIdLen) (h : Started ids c) : ClusterOk ids c where
  members id hid := by
    obtain ⟨clock, node, hcreate, hm⟩ := h.nodes id hid
    obtain ⟨hstate, hown⟩ := addAll_frame node ids
    have hl := (nodeOk_create hcreate).2
    simp only [xdeviceRaftCreateNode, if_true, Option.some.injEq] at hcreate
    have hid' : node.nodeId = id := by
      rw [← hcreate]
      exact strncpy_eq (by have := hids id hid; omega)
    have hslots : node.clusterNodes = [] := by rw [← hcreate]; rfl
    rw [hm]
    refine ⟨hown.trans hid', ?_, fun hc => absurd (hstate ▸ hc) hl, trivial⟩
    dsimp only
    rw [addAll_clusterNodes (by simpa [RaftNode.clusterSize, hslots] using hlen), hslots, List.nil_append]
  granted voter req hr := by simp [h.granted] at hr

theorem clusterOk_run {ids : List CString} (hn : ids.Nodup) {c c' : RaftCluster} (h : ClusterOk ids c)
    {steps : List ClusterStep} {out : List Unit} (hr : clusterMachine.run c steps = some (c', out)) :
    ClusterOk ids c' ∧ c.votes ⊆ c'.votes := by
  refine Machine.Keeps.run (M := clusterMachine) (I := fun c' => ClusterOk ids c' ∧ c.votes ⊆ c'.votes) ?_
    ⟨h, List.Subset.refl _⟩ hr
  rintro c1 a c2 b ⟨h1, hsub⟩ hs
  obtain ⟨c3, hstep, he⟩ := Option.map_eq_some_iff.1 hs
  cases he
  obtain ⟨h2, hsub'⟩ := clusterOk_step hn h1 hstep
  exact ⟨h2, fun v hv => hsub' (hsub hv)⟩

/-! ## Main theorem -/

/-- In every run of a cluster whose voters vote for one candidate in each term, two
nodes that lead in the same term, at whatever points of the run, are the same
node. -/
theorem election_safety {ids : List CString} (hn : ids.Nodup) (hlen : ids.length ≤ xdeviceMaxNodes)
    (hids : ∀ id ∈ ids, id.length < xdeviceMaxNodeIdLen) {c0 c1 c2 : RaftCluster} (h0 : Started ids c0)
    {steps1 steps2 : List ClusterStep} {out1 out2 : List Unit}
    (hrun1 : clusterMachine.run c0 steps1 = some (c1, out1)) (hrun2 : clusterMachine.run c1 steps2 = some (c2, out2))
    (hvotes : OneVote {v | v ∈ c2.votes}) {a b : CString} (ha : a ∈ ids) (hb : b ∈ ids)
    (hlead : (c1.member a).node.state = .leader) (hlead' : (c2.member b).node.state = .leader)
    (hterm : (c1.member a).node.currentTerm = (c2.member b).node.currentTerm) : a = b := by
  obtain ⟨hok1, -⟩ := clusterOk_run hn (clusterOk_started hlen hids h0) hrun1
  obtain ⟨hok2, hsub⟩ := clusterOk_run hn hok1 hrun2
  obtain ⟨s, hmaj, hv⟩ := (hok1.members a ha).leading hlead
  obtain ⟨t, hmaj', hv'⟩ := (hok2.members b hb).leading hlead'
  exact hvotes.unique hmaj hmaj' (hterm ▸ hv.mono hsub) hv'

/-! ## A run of three nodes -/

def threeIds : List CString := [cstr "A", cstr "B", cstr "C"]

def threeNodes : RaftCluster where
  member id := ⟨addAll ((xdeviceRaftCreateNode true ⟨0, 0⟩ id).getD newNodeA) threeIds, .idle⟩
  sent := []
  granted := []
  votes := []

theorem threeNodes_started : Started threeIds threeNodes :=
  ⟨fun _ _ => ⟨⟨0, 0⟩, _, rfl, rfl⟩, rfl, rfl, rfl⟩

/-- "A" wins with the vote of "B" while its request to "C" is lost. -/
def electA : List ClusterStep :=
  [.electionStart (cstr "A") 1000 ⟨1000, 0⟩, .sendVoteRequest (cstr "A"), .sendVoteRequest (cstr "A"),
   .grantVote (cstr "B") ⟨1, cstr "A", 0, 0⟩, .voteResponse (cstr "A") (some ⟨1, true⟩) ⟨0, 0⟩,
   .sendVoteRequest (cstr "A"), .voteResponse (cstr "A") none ⟨0, 0⟩, .sendVoteRequest (cstr "A")]

theorem electA_runs : (clusterMachine.run threeNodes electA).isSome := by decide

/-- The cluster after "A" is elected. -/
def electedA : RaftCluster × List Unit := (clusterMachine.run threeNodes electA).get electA_runs

theorem leadA_runs : (clusterMachine.run electedA.1 [.heartbeat (cstr "A") acceptingEnv]).isSome := by decide

/-- And after its first heartbeat. -/
def leadingA : RaftCluster × List Unit :=
  (clusterMachine.run electedA.1 [.heartbeat (cstr "A") acceptingEnv]).get leadA_runs

theorem electA_one_leader :
    (electedA.1.member (cstr "A")).node.state = .leader ∧ (leadingA.1.member (cstr "A")).node.state = .leader ∧
    cstr "A" = cstr "A" := by
  have hvotes : leadingA.1.votes = [(cstr "B", 1, cstr "A"), (cstr "A", 1, cstr "A")] := by decide
  have hone : OneVote {v | v ∈ leadingA.1.votes} := by
    intro voter term x y hx hy
    simp only [hvotes, Set.mem_ofPred_eq, List.mem_cons, List.not_mem_nil, or_false, Prod.mk.injEq] at hx hy
    rcases hx with ⟨-, -, rfl⟩ | ⟨-, -, rfl⟩ <;> rcases hy with ⟨-, -, rfl⟩ | ⟨-, -, rfl⟩ <;> rfl
  have hlead : (electedA.1.member (cstr "A")).node.state = .leader := by decide
  have hlead' : (leadingA.1.member (cstr "A")).node.state = .leader := by decide
  have hrun1 : clusterMachine.run threeNodes electA = some (electedA.1, electedA.2) :=
    (Option.some_get electA_runs).symm
  have hrun2 : clusterMachine.run electedA.1 [.heartbeat (cstr "A") acceptingEnv] =
      some (leadingA.1, leadingA.2) := (Option.some_get leadA_runs).symm
  exact ⟨hlead, hlead', election_safety (by decide) (by decide) (by decide) threeNodes_started hrun1 hrun2 hone
    (by decide) (by decide) hlead hlead' (by decide)⟩

end XDevice
