import XDevice.Raft.ElectionSafety
/-!
# Who can elect a leader

However a run has gone, the nodes that go on can make any one of them leader of a
term that nobody has seen, as long as they are a majority of the cluster; fewer
cannot, whatever they do. The other nodes take no step, and no step of theirs is
waited for.
-/
open Lib

namespace XDevice

/-- The node that takes a step. -/
def ClusterStep.actor : ClusterStep → CString
  | .electionStart id _ _ => id
  | .sendVoteRequest id => id
  | .grantVote voter _ => voter
  | .voteResponse id _ _ => id
  | .voterUpdate id _ _ _ _ => id
  | .heartbeat id _ => id
  | .appendLog id _ _ => id

/-- An election of `q` goes on: a thread takes a step of its loop, or a node grants a vote. -/
def ClusterStep.Elects (q : Finset CString) : ClusterStep → Prop
  | .electionStart id _ _ | .sendVoteRequest id | .grantVote id _ | .voteResponse id _ _ => id ∈ q
  | .voterUpdate .. | .heartbeat .. | .appendLog .. => False

theorem ClusterStep.Elects.actor {q : Finset CString} {s : ClusterStep} (h : s.Elects q) : s.actor ∈ q := by
  cases s with
  | electionStart | sendVoteRequest | grantVote | voteResponse => exact h
  | voterUpdate | heartbeat | appendLog => exact h.elim

theorem ClusterStep.Elects.mono {q q' : Finset CString} {s : ClusterStep} (h : s.Elects q) (hq : q ⊆ q') : s.Elects q' := by
  cases s with
  | electionStart | sendVoteRequest | grantVote | voteResponse => exact hq h
  | voterUpdate | heartbeat | appendLog => exact h.elim

/-- No node has come as far as `term`, and nobody has voted in it or later. -/
structure FreshTerm (ids : List CString) (term : Nat) (c : RaftCluster) : Prop where
  nodes : ∀ id ∈ ids, (c.member id).node.currentTerm < term
  votes : ∀ voter t candidate, (voter, t, candidate) ∈ c.votes → t < term

theorem addAll_currentTerm (node : RaftNode) (ids : List CString) : (addAll node ids).currentTerm = node.currentTerm := by
  induction ids generalizing node with
  | nil => rfl
  | cons id ids ih =>
    obtain ⟨clusterNodes, he⟩ := addNode_changes node id
    have hstep : addAll node (id :: ids) = addAll (xdeviceRaftAddNodeToCluster node id).1 ids := rfl
    rw [hstep, ih, he]

/-- A node that has just been created is a follower at term zero, in the cluster of `ids`. -/
theorem created_member {ids : List CString} {id : CString} (hlen : ids.length ≤ xdeviceMaxNodes) (hid : id.length < xdeviceMaxNodeIdLen) {clock : Clock}
    {node : RaftNode} (hcreate : xdeviceRaftCreateNode true clock id = some node) :
    (addAll node ids).nodeId = id ∧ (addAll node ids).clusterNodes = ids ∧ (addAll node ids).state = .follower ∧
      (addAll node ids).currentTerm = 0 := by
  have hnew : node.nodeId = id ∧ node.clusterNodes = [] ∧ node.state = .follower ∧ node.currentTerm = 0 := by
    cases hcreate
    exact ⟨strncpy_eq (by omega), rfl, rfl, rfl⟩
  obtain ⟨hown, hslots, hstate, hzero⟩ := hnew
  obtain ⟨hstate', hown'⟩ := addAll_frame node ids
  refine ⟨hown'.trans hown, ?_, hstate'.trans hstate, (addAll_currentTerm node ids).trans hzero⟩
  rw [addAll_clusterNodes (by simpa [RaftNode.clusterSize, hslots] using hlen), hslots, List.nil_append]

/-! ## Steps of one node -/

/-- All but `a` is as before, and more requests may have been sent. -/
structure OthersSame (a : CString) (c c' : RaftCluster) : Prop where
  member : ∀ id ≠ a, c'.member id = c.member id
  votes : c'.votes = c.votes

section
variable {q : Finset CString} {a : CString} {c c' c'' : RaftCluster}

theorem OthersSame.refl (a : CString) (c : RaftCluster) : OthersSame a c c := ⟨fun _ _ => rfl, rfl⟩

theorem OthersSame.trans (h : OthersSame a c c') (h' : OthersSame a c' c'') : OthersSame a c c'' :=
  ⟨fun id hid => (h'.member id hid).trans (h.member id hid), h'.votes.trans h.votes⟩

theorem setMember_self (c : RaftCluster) (a : CString) (m : ClusterMember) : (c.setMember a m).member a = m := if_pos rfl

theorem setMember_other (c : RaftCluster) {a id : CString} (h : id ≠ a) (m : ClusterMember) :
    (c.setMember a m).member id = c.member id := if_neg h

theorem OthersSame.setMember (c : RaftCluster) (a : CString) (m : ClusterMember) : OthersSame a c (c.setMember a m) :=
  ⟨fun _ hid => setMember_other c hid m, rfl⟩

/-- A step on the way to somewhere. -/
theorem reaches_by {A : ClusterStep → Prop} {step : ClusterStep} (hs : clusterStep c step = some c') (ha : A step)
    (h : clusterMachine.Reaches A c' c'') : clusterMachine.Reaches A c c'' := by
  refine .step (b := ()) ?_ ha h
  change (clusterStep c step).map (fun c => (c, ())) = some (c', ())
  rw [hs, Option.map_some]

end

/-- `a` waits for the answer of `peer`. -/
def asked (c : RaftCluster) (a : CString) (node : RaftNode) (n slot : Nat) (peer : CString) : RaftCluster :=
  { c.setMember a ⟨node, .awaiting n slot peer (voteRequest node)⟩ with sent := (peer, voteRequest node) :: c.sent }

/-! ## The loop over the slots -/

section
variable {q : Finset CString} {a peer : CString} {c : RaftCluster} {node : RaftNode} {n slot : Nat} {req : VoteRequest}

theorem asked_self : (asked c a node n slot peer).member a = ⟨node, .awaiting n slot peer (voteRequest node)⟩ :=
  setMember_self c a _

theorem asked_same : OthersSame a c (asked c a node n slot peer) := ⟨fun _ hid => setMember_other c hid _, rfl⟩

theorem send_past (h : c.member a = ⟨node, .polling n slot⟩) (hslot : node.clusterNodes[slot]? = none) :
    clusterStep c (.sendVoteRequest a) = some (c.setMember a ⟨finishElection node n, .idle⟩) := by
  simp only [clusterStep, sendVoteRequestStep, h, hslot]

theorem send_own (h : c.member a = ⟨node, .polling n slot⟩) (hslot : node.clusterNodes[slot]? = some node.nodeId) :
    clusterStep c (.sendVoteRequest a) = some (c.setMember a ⟨node, .polling n (slot + 1)⟩) := by
  simp only [clusterStep, sendVoteRequestStep, h, hslot, if_true]

theorem send_peer (h : c.member a = ⟨node, .polling n slot⟩) (hslot : node.clusterNodes[slot]? = some peer)
    (hne : peer ≠ node.nodeId) : clusterStep c (.sendVoteRequest a) = some (asked c a node n slot peer) := by
  simp only [clusterStep, sendVoteRequestStep, h, hslot, if_neg hne]
  rfl

theorem answer_lost (h : c.member a = ⟨node, .awaiting n slot peer req⟩) (clock : Clock) :
    clusterStep c (.voteResponse a none clock) = some (c.setMember a ⟨node, .polling n (slot + 1)⟩) := by
  simp only [clusterStep, voteResponseStep, h]

theorem answer_granted (h : c.member a = ⟨node, .awaiting n slot peer req⟩) (hgranted : (peer, req) ∈ c.granted)
    (clock : Clock) :
    clusterStep c (.voteResponse a (some ⟨node.currentTerm, true⟩) clock) =
      some (c.setMember a ⟨node, .polling (n + 1) (slot + 1)⟩) := by
  have hresp : handleVoteResponse node clock n ⟨node.currentTerm, true⟩ = (node, n + 1, true) := by
    simp [handleVoteResponse]
  simp only [clusterStep, voteResponseStep, h, hresp]
  exact if_neg fun hlost => hlost.2 hgranted

/-- Without a vote from there, the loop goes on behind a slot. -/
theorem passes_slot (ha : a ∈ q) (h : c.member a = ⟨node, .polling n slot⟩) (hslot : slot < node.clusterNodes.length) :
    ∃ c', clusterMachine.Reaches (ClusterStep.Elects q) c c' ∧ OthersSame a c c' ∧
      c'.member a = ⟨node, .polling n (slot + 1)⟩ := by
  have hget := List.getElem?_eq_getElem hslot
  by_cases hown : node.clusterNodes[slot] = node.nodeId
  · rw [hown] at hget
    exact ⟨_, reaches_by (send_own h hget) ha (.refl _), .setMember _ _ _, setMember_self _ _ _⟩
  · have hsent := send_peer h hget hown
    let c1 := asked c a node n slot node.clusterNodes[slot]
    have hlost : clusterStep c1 (.voteResponse a none ⟨0, 0⟩) = some (c1.setMember a ⟨node, .polling n (slot + 1)⟩) :=
      answer_lost asked_self ⟨0, 0⟩
    exact ⟨_, reaches_by hsent ha (reaches_by hlost ha (.refl _)), asked_same.trans (.setMember _ _ _),
      setMember_self _ _ _⟩

/-- An iteration that has no answer to the rest of its requests, and does not win without, ends. -/
theorem leaves_polling (ha : a ∈ q) (hlost : finishElection node n = node) (h : c.member a = ⟨node, .polling n slot⟩) :
    ∃ c', clusterMachine.Reaches (ClusterStep.Elects q) c c' ∧ OthersSame a c c' ∧ c'.member a = ⟨node, .idle⟩ := by
  induction hk : node.clusterNodes.length - slot generalizing c slot with
  | zero =>
    have hpast := List.getElem?_eq_none (l := node.clusterNodes) (i := slot) (by omega)
    have hstep := send_past h hpast
    rw [hlost] at hstep
    exact ⟨_, reaches_by hstep ha (.refl _), .setMember _ _ _, setMember_self _ _ _⟩
  | succ k ih =>
    obtain ⟨c1, hr, hsame, hm⟩ := passes_slot ha h (by omega)
    obtain ⟨c2, hr', hsame', hm'⟩ := ih hm (by omega)
    exact ⟨c2, hr.trans hr', hsame.trans hsame', hm'⟩

theorem leaves_election (ha : a ∈ q) (hlost : (c.member a).node.state ≠ .candidate) :
    ∃ c', clusterMachine.Reaches (ClusterStep.Elects q) c c' ∧ OthersSame a c c' ∧
      c'.member a = ⟨(c.member a).node, .idle⟩ := by
  have hends : ∀ n, finishElection (c.member a).node n = (c.member a).node := fun n => if_neg fun hwon => hlost hwon.1
  generalize hm : c.member a = m at hends ⊢
  obtain ⟨node, phase⟩ := m
  cases phase with
  | idle => exact ⟨c, .refl c, .refl a c, hm⟩
  | polling n slot => exact leaves_polling ha (hends n) hm
  | awaiting n slot peer req =>
    have hstep := answer_lost hm ⟨0, 0⟩
    obtain ⟨c', hr, hsame, hm'⟩ := leaves_polling ha (hends n) (setMember_self c a ⟨node, .polling n (slot + 1)⟩)
    exact ⟨c', reaches_by hstep ha hr, (OthersSame.setMember c a _).trans hsame, hm'⟩

/-! ## Collecting votes -/

/-- The peers of `node` in the slots from `slot` on that are in `q`. -/
def voters (q : Finset CString) (node : RaftNode) (slot : Nat) : List CString :=
  (node.clusterNodes.drop slot).filter fun id => id ∈ q ∧ id ≠ node.nodeId

/-- All but `a` is as before, and only nodes of `q` have voted, for `a` in one of `terms`. -/
structure VotesAdded (q : Finset CString) (a : CString) (terms : Set Nat) (c c' : RaftCluster) : Prop where
  member : ∀ id ≠ a, c'.member id = c.member id
  votes : ∃ added, c'.votes = added ++ c.votes ∧ ∀ v ∈ added, v.1 ∈ q ∧ v.2.1 ∈ terms ∧ v.2.2 = a

theorem OthersSame.added {c' : RaftCluster} (h : OthersSame a c c') (q : Finset CString) (terms : Set Nat) :
    VotesAdded q a terms c c' :=
  ⟨h.member, [], h.votes, nofun⟩

/-- One vote more. -/
theorem VotesAdded.one {term : Nat} {c' : RaftCluster} {voter : CString} (hmember : ∀ id ≠ a, c'.member id = c.member id)
    (hvotes : c'.votes = (voter, term, a) :: c.votes) (hvoter : voter ∈ q) : VotesAdded q a {term} c c' :=
  ⟨hmember, [(voter, term, a)], hvotes, fun v hv => by
    rw [List.mem_singleton.1 hv]
    exact ⟨hvoter, rfl, rfl⟩⟩

theorem VotesAdded.mono {terms terms' : Set Nat} {c' : RaftCluster} (h : VotesAdded q a terms c c')
    (hterms : terms ⊆ terms') : VotesAdded q a terms' c c' := by
  obtain ⟨added, he, hall⟩ := h.votes
  refine ⟨h.member, added, he, fun v hv => ?_⟩
  obtain ⟨hvoter, hterm, ha⟩ := hall v hv
  exact ⟨hvoter, hterms hterm, ha⟩

theorem VotesAdded.trans {terms : Set Nat} {c' c'' : RaftCluster} (h : VotesAdded q a terms c c')
    (h' : VotesAdded q a terms c' c'') : VotesAdded q a terms c c'' := by
  obtain ⟨added, he, hall⟩ := h.votes
  obtain ⟨added', he', hall'⟩ := h'.votes
  refine ⟨fun id hid => (h'.member id hid).trans (h.member id hid), added' ++ added, ?_, fun v hv => ?_⟩
  · rw [he', he, List.append_assoc]
  · rcases List.mem_append.1 hv with hv | hv
    · exact hall' v hv
    · exact hall v hv

/-- The peer in a slot is asked, grants the vote and is heard. -/
theorem takes_vote (ha : a ∈ q) (hown : node.nodeId = a) (h : c.member a = ⟨node, .polling n slot⟩)
    (hslot : node.clusterNodes[slot]? = some peer) (hne : peer ≠ a) (hpeer : peer ∈ q)
    (hterm : (c.member peer).node.currentTerm ≤ node.currentTerm) :
    ∃ c', clusterMachine.Reaches (ClusterStep.Elects q) c c' ∧ VotesAdded q a {node.currentTerm} c c' ∧
      c'.member a = ⟨node, .polling (n + 1) (slot + 1)⟩ := by
  have hsent := send_peer h hslot (hown ▸ hne)
  let c1 := asked c a node n slot peer
  let c2 : RaftCluster := { c1 with
    granted := (peer, voteRequest node) :: c1.granted, votes := (peer, node.currentTerm, node.nodeId) :: c1.votes }
  have hgrant : clusterStep c1 (.grantVote peer (voteRequest node)) = some c2 := by
    refine if_pos ⟨List.mem_cons_self, ?_⟩
    rw [asked_same.member peer hne]
    exact hterm
  have hheard : clusterStep c2 (.voteResponse a (some ⟨node.currentTerm, true⟩) ⟨0, 0⟩) =
      some (c2.setMember a ⟨node, .polling (n + 1) (slot + 1)⟩) :=
    answer_granted (c := c2) asked_self List.mem_cons_self ⟨0, 0⟩
  refine ⟨_, reaches_by hsent ha (reaches_by hgrant hpeer (reaches_by hheard ha (.refl _))), ?_, setMember_self _ _ _⟩
  refine .one (fun id hid => (setMember_other c2 hid _).trans (asked_same.member id hid)) ?_ hpeer
  exact congrArg (fun id => (peer, node.currentTerm, id) :: c.votes) hown

/-- Asked slot by slot, all voters of `q` are counted. -/
theorem collects_votes (ha : a ∈ q) (hown : node.nodeId = a)
    (hterm : ∀ id ∈ q, id ≠ a → id ∈ node.clusterNodes → (c.member id).node.currentTerm ≤ node.currentTerm)
    (h : c.member a = ⟨node, .polling n slot⟩) :
    ∃ c', clusterMachine.Reaches (ClusterStep.Elects q) c c' ∧ VotesAdded q a {node.currentTerm} c c' ∧
      c'.member a = ⟨finishElection node (n + (voters q node slot).length), .idle⟩ := by
  induction hk : node.clusterNodes.length - slot generalizing c n slot with
  | zero =>
    have hle : node.clusterNodes.length ≤ slot := by omega
    have hnone : voters q node slot = [] := by rw [voters, List.drop_eq_nil_of_le hle, List.filter_nil]
    have hstep := send_past h (List.getElem?_eq_none hle)
    rw [hnone]
    exact ⟨_, reaches_by hstep ha (.refl _), (OthersSame.setMember c a _).added q _, setMember_self _ _ _⟩
  | succ k ih =>
    have hlt : slot < node.clusterNodes.length := by omega
    have hdrop : voters q node slot =
        if node.clusterNodes[slot] ∈ q ∧ node.clusterNodes[slot] ≠ node.nodeId then
          node.clusterNodes[slot] :: voters q node (slot + 1)
        else voters q node (slot + 1) := by
      simp only [voters, List.drop_eq_getElem_cons hlt, List.filter_cons, decide_eq_true_eq]
    have hrest : ∀ {c1 : RaftCluster} {m : Nat}, VotesAdded q a {node.currentTerm} c c1 →
        clusterMachine.Reaches (ClusterStep.Elects q) c c1 → c1.member a = ⟨node, .polling m (slot + 1)⟩ →
        ∃ c', clusterMachine.Reaches (ClusterStep.Elects q) c c' ∧ VotesAdded q a {node.currentTerm} c c' ∧
          c'.member a = ⟨finishElection node (m + (voters q node (slot + 1)).length), .idle⟩ := by
      intro c1 m hadded hr hm
      have hterm1 : ∀ id ∈ q, id ≠ a → id ∈ node.clusterNodes →
          (c1.member id).node.currentTerm ≤ node.currentTerm := by
        intro id hq hne hmem
        rw [hadded.member id hne]
        exact hterm id hq hne hmem
      obtain ⟨c2, hr', hadded', hm'⟩ := ih hterm1 hm (by omega)
      exact ⟨c2, hr.trans hr', hadded.trans hadded', hm'⟩
    by_cases hvoter : node.clusterNodes[slot] ∈ q ∧ node.clusterNodes[slot] ≠ node.nodeId
    · obtain ⟨hq, hne⟩ := hvoter
      rw [hown] at hne
      obtain ⟨c1, hr, hadded, hm⟩ := takes_vote ha hown h (List.getElem?_eq_getElem hlt) hne hq
        (hterm _ hq hne (List.getElem_mem hlt))
      rw [hdrop, if_pos ⟨hq, hown ▸ hne⟩, List.length_cons, Nat.add_comm _ 1, ← Nat.add_assoc]
      exact hrest hadded hr hm
    · obtain ⟨c1, hr, hsame, hm⟩ := passes_slot ha h hlt
      rw [hdrop, if_neg hvoter]
      exact hrest (hsame.added q _) hr hm

/-- Every other node of `q` has a slot. -/
theorem length_voters (hn : node.clusterNodes.Nodup) (hq : q ⊆ node.clusterNodes.toFinset) (hown : node.nodeId ∈ q) :
    1 + (voters q node 0).length = q.card := by
  have hset : (voters q node 0).toFinset = q.erase node.nodeId := by
    ext id
    simp only [voters, List.drop_zero, List.mem_toFinset, List.mem_filter, decide_eq_true_eq, Finset.mem_erase]
    constructor
    · rintro ⟨-, hid, hne⟩
      exact ⟨hne, hid⟩
    · rintro ⟨hne, hid⟩
      exact ⟨List.mem_toFinset.1 (hq hid), hid, hne⟩
  have hnodup : (voters q node 0).Nodup := hn.sublist (List.filter_sublist.trans (List.drop_sublist _ _))
  have hpos : 0 < q.card := Finset.card_pos.2 ⟨_, hown⟩
  rw [← List.toFinset_card_of_nodup hnodup, hset, Finset.card_erase_of_mem hown]
  omega

end

/-! ## A majority elects -/

section
variable {ids : List CString} {q : Finset CString} {a : CString} {c c' : RaftCluster} {term : Nat}

/-- A new vote in a term that nobody has voted in takes no second one. -/
theorem VotesAdded.oneVote (h : VotesAdded q a {term} c c') (hfresh : FreshTerm ids term c)
    (hvotes : OneVote {v | v ∈ c.votes}) : OneVote {v | v ∈ c'.votes} := by
  obtain ⟨added, he, hall⟩ := h.votes
  have hcases : ∀ voter t x, (voter, t, x) ∈ c'.votes → (voter, t, x) ∈ c.votes ∧ t < term ∨ t = term ∧ x = a := by
    intro voter t x hx
    rw [he] at hx
    rcases List.mem_append.1 hx with hnew | hold
    · exact .inr (hall _ hnew).2
    · exact .inl ⟨hold, hfresh.votes voter t x hold⟩
  intro voter t x y hx hy
  rcases hcases voter t x hx with ⟨hx, hlt⟩ | ⟨ht, rfl⟩ <;> rcases hcases voter t y hy with ⟨hy, hlt'⟩ | ⟨ht', rfl⟩
  · exact hvotes voter t x y hx hy
  · omega
  · omega
  · rfl

/-- Outside an election iteration, `a` leads nobody in `term`. -/
structure Follows (ids : List CString) (a : CString) (term : Nat) (c : RaftCluster) : Prop where
  idle : (c.member a).phase = .idle
  own : (c.member a).node.nodeId = a
  slots : (c.member a).node.clusterNodes = ids
  state : (c.member a).node.state ≠ .leader
  term : (c.member a).node.currentTerm = term

theorem Follows.of_member {node : RaftNode} (hm : c.member a = ⟨node, .idle⟩) (hown : node.nodeId = a)
    (hslots : node.clusterNodes = ids) (hstate : node.state ≠ .leader) (hterm : node.currentTerm = term) :
    Follows ids a term c := by
  constructor <;> rw [hm]
  · exact hown
  · exact hslots
  · exact hstate
  · exact hterm

/-- At the head of the loop over the slots, `a` is a candidate of `term` with its own vote. -/
structure Stands (ids : List CString) (a : CString) (term : Nat) (c : RaftCluster) : Prop where
  phase : (c.member a).phase = .polling 1 0
  own : (c.member a).node.nodeId = a
  slots : (c.member a).node.clusterNodes = ids
  state : (c.member a).node.state = .candidate
  term : (c.member a).node.currentTerm = term

theorem Follows.starts (h : Follows ids a term c) (ha : a ∈ q) (hterm : term + 1 < 2 ^ 64) :
    ∃ c', clusterMachine.Reaches (ClusterStep.Elects q) c c' ∧ VotesAdded q a {term + 1} c c' ∧
      Stands ids a (term + 1) c' := by
  let node := startElection (c.member a).node ⟨0, 0⟩
  have hnext : node.currentTerm = term + 1 := by
    change add64 (c.member a).node.currentTerm 1 = term + 1
    rw [h.term, add64_eq hterm]
  have hstart : clusterStep c (.electionStart a (c.member a).node.electionTimeout ⟨0, 0⟩) =
      some { c.setMember a ⟨node, .polling 1 0⟩ with votes := (a, node.currentTerm, node.votedFor) :: c.votes } := by
    have hdue : electionDue (c.member a).node (c.member a).node.electionTimeout = true := by
      simp [electionDue, h.state]
    simp only [clusterStep, electionStartStep, ClusterMember.unlocked, h.idle, hdue]
    rfl
  refine ⟨_, reaches_by hstart ha (.refl _), ?_, ?_⟩
  · refine .one (fun id hne => setMember_other c hne _) ?_ ha
    rw [hnext]
    exact congrArg (fun id => (a, term + 1, id) :: c.votes) h.own
  · have hself := setMember_self c a ⟨node, .polling 1 0⟩
    constructor <;> dsimp only <;> rw [hself]
    · exact h.own
    · exact h.slots
    · rfl
    · exact hnext

/-- Nobody answers: unless it is alone in the cluster, `a` has not won. -/
theorem Stands.unanswered (h : Stands ids a term c) (ha : a ∈ q) (hpeers : 1 < ids.length) :
    ∃ c', clusterMachine.Reaches (ClusterStep.Elects q) c c' ∧ OthersSame a c c' ∧ Follows ids a term c' := by
  obtain ⟨hphase, hown, hslots, hstate, hterm⟩ := h
  generalize hm : c.member a = m at hphase hown hslots hstate hterm
  obtain ⟨node, phase⟩ := m
  subst hphase
  have hlost : finishElection node 1 = node := by
    refine if_neg fun hwon => ?_
    have hcount := hwon.2
    rw [RaftNode.clusterSize, hslots] at hcount
    omega
  obtain ⟨c', hr, hsame, hm'⟩ := leaves_polling ha hlost hm
  refine ⟨c', hr, hsame, .of_member hm' hown hslots (fun hlead => ?_) hterm⟩
  cases hlead.symm.trans hstate

/-- By elections that nobody answers a node comes to any later term. -/
theorem Follows.climbs (h : Follows ids a term c) (ha : a ∈ q) (hpeers : 1 < ids.length) (k : Nat)
    (hterm : term + k < 2 ^ 64) :
    ∃ c', clusterMachine.Reaches (ClusterStep.Elects q) c c' ∧ VotesAdded q a Set.univ c c' ∧
      Follows ids a (term + k) c' := by
  induction k generalizing c term with
  | zero => exact ⟨c, .refl c, (OthersSame.refl a c).added q _, h⟩
  | succ k ih =>
    obtain ⟨c1, hr1, hadded1, h1⟩ := h.starts ha (by omega)
    obtain ⟨c2, hr2, hsame2, h2⟩ := h1.unanswered ha hpeers
    obtain ⟨c3, hr3, hadded3, h3⟩ := ih h2 (by omega)
    rw [Nat.add_assoc, Nat.add_comm 1 k] at h3
    exact ⟨c3, hr1.trans (hr2.trans hr3),
      (hadded1.mono (Set.subset_univ _)).trans ((hsame2.added q _).trans hadded3), h3⟩

/-- Told of the term before and to step down, any node comes to stand for election. -/
theorem becomes_candidate (hok : ClusterOk ids c) (ha : a ∈ q) (hid : a ∈ ids)
    (hlt : (c.member a).node.currentTerm < term) (hterm : term < 2 ^ 64) :
    ∃ c', clusterMachine.Reaches (fun s => s.actor ∈ q) c c' ∧ VotesAdded q a {term} c c' ∧ Stands ids a term c' := by
  have hm := hok.members a hid
  let node := voterUpdate (c.member a).node (term - 1) true [] 0
  let c0 := c.setMember a ⟨node, (c.member a).phase⟩
  have hstate : node.state = .follower := if_pos (.inr rfl)
  have hdown : clusterStep c (.voterUpdate a (term - 1) true [] 0) = some c0 := rfl
  have hself : c0.member a = ⟨node, (c.member a).phase⟩ := setMember_self c a _
  obtain ⟨c1, hr, hsame, hm1⟩ := leaves_election (c := c0) (q := q) (a := a) ha (by simp [hself, hstate])
  rw [hself] at hm1
  have hfollows : Follows ids a (term - 1) c1 :=
    .of_member hm1 hm.own hm.slots (by simp [hstate]) (Nat.max_eq_right (by omega))
  obtain ⟨c2, hr', hadded, hstands⟩ := hfollows.starts ha (by omega)
  rw [Nat.sub_add_cancel (by omega)] at hadded hstands
  exact ⟨c2, reaches_by hdown ha ((hr.trans hr').mono fun _ => ClusterStep.Elects.actor),
    (((OthersSame.setMember c a _).trans hsame).added q _).trans hadded, hstands⟩

/-- A candidate that a majority has not overtaken hears from all of it, and leads. -/
theorem Stands.elected (h : Stands ids a term c) (hn : ids.Nodup) (hq : IsMajority ids.toFinset q) (ha : a ∈ q)
    (hreached : ∀ id ∈ q, id ≠ a → (c.member id).node.currentTerm ≤ term) :
    ∃ c', clusterMachine.Reaches (ClusterStep.Elects q) c c' ∧ VotesAdded q a {term} c c' ∧
      (c'.member a).node.state = .leader ∧ (c'.member a).node.currentTerm = term := by
  obtain ⟨hphase, hown, hslots, hstate, hcur⟩ := h
  generalize hm : c.member a = m at hphase hown hslots hstate hcur
  obtain ⟨node, phase⟩ := m
  subst hphase
  obtain ⟨c', hr, hadded, hm'⟩ := collects_votes ha hown (fun id hid hne _ => hcur ▸ hreached id hid hne) hm
  have hcount : 1 + (voters q node 0).length = q.card :=
    length_voters (hslots ▸ hn) (hslots ▸ hq.subset) (hown ▸ ha)
  have hwon : node.clusterSize / 2 < 1 + (voters q node 0).length := by
    have hcard := hq.card
    rw [List.toFinset_card_of_nodup hn] at hcard
    rw [hcount, RaftNode.clusterSize, hslots]
    omega
  have hlead : c'.member a = ⟨{ node with
      state := .leader
      nextIndex := List.replicate node.clusterSize (add64 node.logSize 1) ++ node.nextIndex.drop node.clusterSize
      matchIndex := List.replicate node.clusterSize 0 ++ node.matchIndex.drop node.clusterSize
      lastHeartbeat := 0 }, .idle⟩ := by
    rw [hm', finishElection, if_pos ⟨hstate, hwon⟩]
  refine ⟨c', hr, hcur ▸ hadded, ?_, ?_⟩
  · rw [hlead]
  · rw [hlead]
    exact hcur

/-- A majority whose nodes are all behind `term` makes any one of them its leader, and votes for
nobody else. -/
theorem majority_elects (hn : ids.Nodup) (hok : ClusterOk ids c) (hq : IsMajority ids.toFinset q) (ha : a ∈ q)
    (hbehind : ∀ id ∈ q, (c.member id).node.currentTerm < term) (hterm : term < 2 ^ 64) :
    ∃ c', clusterMachine.Reaches (fun s => s.actor ∈ q) c c' ∧ VotesAdded q a {term} c c' ∧
      (c'.member a).node.state = .leader ∧ (c'.member a).node.currentTerm = term := by
  have hid : a ∈ ids := List.mem_toFinset.1 (hq.subset ha)
  obtain ⟨c1, hr, hadded, hstands⟩ := becomes_candidate hok ha hid (hbehind a ha) hterm
  obtain ⟨c2, hr', hadded', hlead⟩ := hstands.elected hn hq ha fun id hmem hne => by
    rw [hadded.member id hne]
    exact Nat.le_of_lt (hbehind id hmem)
  exact ⟨c2, hr.trans (hr'.mono fun _ => ClusterStep.Elects.actor), hadded.trans hadded', hlead⟩

/-- A node that leads nobody needs no more than elections: unanswered ones up to `term`, and one
in it that the majority answers. -/
theorem Follows.elected {t : Nat} (h : Follows ids a t c) (hn : ids.Nodup) (hpeers : 1 < ids.length)
    (hq : IsMajority ids.toFinset q) (ha : a ∈ q) (hbehind : ∀ id ∈ q, (c.member id).node.currentTerm < term)
    (hterm : term < 2 ^ 64) :
    ∃ c', clusterMachine.Reaches (ClusterStep.Elects q) c c' ∧ VotesAdded q a Set.univ c c' ∧
      (c'.member a).node.state = .leader ∧ (c'.member a).node.currentTerm = term := by
  have hlt : t < term := h.term ▸ hbehind a ha
  obtain ⟨c1, hr1, hadded1, h1⟩ := h.climbs ha hpeers (term - 1 - t) (by omega)
  obtain ⟨c2, hr2, hadded2, hstands⟩ := h1.starts ha (by omega)
  rw [show t + (term - 1 - t) + 1 = term by omega] at hadded2 hstands
  have hadded := hadded1.trans (hadded2.mono (Set.subset_univ _))
  obtain ⟨c3, hr3, hadded3, hlead⟩ := hstands.elected hn hq ha fun id hmem hne => by
    rw [hadded.member id hne]
    exact Nat.le_of_lt (hbehind id hmem)
  exact ⟨c3, hr1.trans (hr2.trans hr3), hadded.trans (hadded3.mono (Set.subset_univ _)), hlead⟩

/-- In a step only the node that takes it votes, once if at all. -/
theorem step_votes {step : ClusterStep} (hs : clusterStep c step = some c') :
    c'.votes = c.votes ∨ ∃ ballot, c'.votes = (step.actor, ballot) :: c.votes := by
  cases step with
  | electionStart id now clock =>
    simp only [clusterStep, electionStartStep] at hs
    split at hs
    · cases hs
    · split at hs
      · cases hs
        exact .inr ⟨_, rfl⟩
      · cases hs
        exact .inl rfl
  | sendVoteRequest id =>
    simp only [clusterStep, sendVoteRequestStep] at hs
    split at hs
    · split at hs
      · cases hs
        exact .inl rfl
      · split at hs <;> cases hs <;> exact .inl rfl
    · cases hs
  | grantVote id req =>
    simp only [clusterStep, grantVoteStep] at hs
    split at hs
    · cases hs
      exact .inr ⟨_, rfl⟩
    · cases hs
  | voteResponse id resp clock =>
    simp only [clusterStep, voteResponseStep] at hs
    split at hs
    · split at hs
      · cases hs
        exact .inl rfl
      · split at hs
        · cases hs
        · split at hs <;> cases hs <;> exact .inl rfl
    · cases hs
  | voterUpdate id t' demote votedFor timeout =>
    cases hs
    exact .inl rfl
  | heartbeat id env =>
    simp only [clusterStep] at hs
    split at hs
    · obtain ⟨node, -, rfl⟩ := Option.map_eq_some_iff.1 hs
      exact .inl rfl
    · cases hs
  | appendLog id env data =>
    simp only [clusterStep] at hs
    split at hs
    · cases hs
      exact .inl rfl
    · cases hs

end

end XDevice
