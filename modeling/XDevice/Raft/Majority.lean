import XDevice.Raft.Index
import XDevice.Lib.Quorum
/-!
# What it takes to win

The tally counts slots of `cluster_nodes` and compares them with half of
`cluster_size`; an election is safe when the nodes behind the slots are more
than half of all nodes. The two agree unless a few ids fill many of the slots,
or the node itself has none.
-/
open Lib

namespace XDevice

/-- The node after a sequence of `xdevice_raft_add_node_to_cluster` calls. -/
def addAll (node : RaftNode) (ids : List CString) : RaftNode :=
  ids.foldl (fun node id => (xdeviceRaftAddNodeToCluster node id).1) node

/-- The node itself and every id in its slots. -/
def members (node : RaftNode) : Finset CString := insert node.nodeId node.clusterNodes.toFinset

/-- The ids that grant the node their vote in one iteration, its own among them. -/
def granters (env : ElectionEnv) (node : RaftNode) : Finset CString :=
  insert node.nodeId (grantedFrom env (startElection node env.startClock) 0 node.clusterNodes).toFinset

/-- Other nodes that make no majority with this one do not fill more than half of
the slots with it either. -/
def NoHeavyMinority (node : RaftNode) : Prop :=
  ∀ s ⊆ node.clusterNodes.toFinset.erase node.nodeId, ¬ IsMajority (members node) (insert node.nodeId s) →
    1 + (node.clusterNodes.filter (· ∈ s)).length ≤ node.clusterSize / 2

/-! ## The slots that grant -/

theorem addAll_frame (node : RaftNode) (ids : List CString) :
    (addAll node ids).state = node.state ∧ (addAll node ids).nodeId = node.nodeId := by
  induction ids generalizing node with
  | nil => exact ⟨rfl, rfl⟩
  | cons id ids ih =>
    obtain ⟨h1, h2⟩ := ih (xdeviceRaftAddNodeToCluster node id).1
    have hone : (xdeviceRaftAddNodeToCluster node id).1.state = node.state ∧
        (xdeviceRaftAddNodeToCluster node id).1.nodeId = node.nodeId := by
      unfold xdeviceRaftAddNodeToCluster
      split <;> exact ⟨rfl, rfl⟩
    exact ⟨h1.trans hone.1, h2.trans hone.2⟩

theorem mem_grantedFrom {env : ElectionEnv} {node : RaftNode} {i : Nat} {ids : List CString} {id : CString}
    (h : id ∈ grantedFrom env node i ids) : id ∈ ids ∧ id ≠ node.nodeId := by
  induction ids generalizing i with
  | nil => cases h
  | cons id' ids ih =>
    unfold grantedFrom at h
    split at h
    · rename_i hg
      rcases List.mem_cons.1 h with rfl | h
      · exact ⟨List.mem_cons_self, hg.1⟩
      · exact ⟨List.mem_cons_of_mem _ (ih h).1, (ih h).2⟩
    · exact ⟨List.mem_cons_of_mem _ (ih h).1, (ih h).2⟩

theorem grantedFrom_sublist (env : ElectionEnv) (node : RaftNode) (i : Nat) (ids : List CString) :
    (grantedFrom env node i ids).Sublist ids := by
  induction ids generalizing i with
  | nil => exact .slnil
  | cons id ids ih =>
    unfold grantedFrom
    split
    · exact (ih (i + 1)).cons_cons id
    · exact (ih (i + 1)).cons id

/-- The granting slots are among those their ids fill. -/
theorem length_grantedFrom_le (env : ElectionEnv) (node : RaftNode) (i : Nat) (ids : List CString) :
    (grantedFrom env node i ids).length ≤ (ids.filter (· ∈ (grantedFrom env node i ids).toFinset)).length := by
  have hself : (grantedFrom env node i ids).filter (· ∈ (grantedFrom env node i ids).toFinset) =
      grantedFrom env node i ids := List.filter_eq_self.2 (by simp)
  have := ((grantedFrom_sublist env node i ids).filter (· ∈ (grantedFrom env node i ids).toFinset)).length_le
  rwa [hself] at this

/-- The slots with an id in `s` grant, and only these. -/
def grantTo (node : RaftNode) (s : Finset CString) : ElectionEnv where
  now := node.electionTimeout
  startClock := ⟨0, 0⟩
  sendVoteRequest i req := some ⟨req.term, (node.clusterNodes[i]?).any (· ∈ s)⟩
  stepClock _ := ⟨0, 0⟩

theorem grantedFrom_grantTo (node node' : RaftNode) {s : Finset CString} (hs : node'.nodeId ∉ s) {i : Nat}
    {ids : List CString} (hids : node.clusterNodes.drop i = ids) :
    grantedFrom (grantTo node s) node' i ids = ids.filter (· ∈ s) := by
  induction ids generalizing i with
  | nil => rfl
  | cons id ids ih =>
    obtain ⟨hid, hnext⟩ := slot_of_drop hids
    have hne : id ∈ s → id ≠ node'.nodeId := fun h he => hs (he ▸ h)
    simp only [grantedFrom, grantTo, Option.any_some, hid, List.filter_cons, decide_eq_true_eq]
    by_cases h : id ∈ s
    · rw [if_pos ⟨hne h, h⟩, if_pos h]
      exact congrArg _ (ih hnext)
    · rw [if_neg fun hc => h hc.2, if_neg h]
      exact ih hnext

/-! ## Winning -/

/-- A node that wins has its own vote and a granting slot for each other it needs. -/
theorem won_slots {env : ElectionEnv} {node : RaftNode} (hs : node.state ≠ .leader)
    (hwin : (electionIteration env node).state = .leader) :
    node.clusterSize / 2 <
      1 + (grantedFrom env (startElection node env.startClock) 0 node.clusterNodes).length := by
  rcases electionIteration_cases env node with he | ⟨-, he | ⟨term, clock, he⟩⟩
  · exact absurd (he ▸ hwin) hs
  · rw [he] at hwin
    by_contra hlt
    unfold finishElection at hwin
    rw [if_neg fun hc => hlt hc.2] at hwin
    cases hwin
  · rw [he] at hwin
    cases hwin

theorem wins_of_slots {node : RaftNode} (hs : node.state ≠ .leader) {s : Finset CString} (hself : node.nodeId ∉ s)
    (hslots : node.clusterSize / 2 < 1 + (node.clusterNodes.filter (· ∈ s)).length) :
    (electionIteration (grantTo node s) node).state = .leader ∧
      granters (grantTo node s) node = insert node.nodeId (node.clusterNodes.filter (· ∈ s)).toFinset := by
  have hgranted : grantedFrom (grantTo node s) (startElection node (grantTo node s).startClock) 0 node.clusterNodes =
      node.clusterNodes.filter (· ∈ s) := grantedFrom_grantTo node (startElection node _) hself List.drop_zero
  refine ⟨?_, by rw [granters, hgranted]⟩
  have hdue : electionDue node (grantTo node s).now = true := by simp [electionDue, grantTo, hs]
  have hcalm : ∀ i resp, (grantTo node s).sendVoteRequest i
      (voteRequest (startElection node (grantTo node s).startClock)) = some resp →
      resp.term ≤ (startElection node (grantTo node s).startClock).currentTerm := by
    rintro i resp ⟨⟩
    exact Nat.le_refl _
  rw [electionIteration, if_pos hdue, pollFrom_calm hcalm, hgranted]
  dsimp only [finishElection]
  rw [if_pos ⟨rfl, hslots⟩]

theorem wins_with_majority_iff {node : RaftNode} (hs : node.state ≠ .leader) :
    (∀ env, (electionIteration env node).state = .leader → IsMajority (members node) (granters env node)) ↔
      NoHeavyMinority node := by
  constructor
  · intro h s hsub hmin
    by_contra hslots
    have hself : node.nodeId ∉ s := fun hmem => Finset.notMem_erase _ _ (hsub hmem)
    obtain ⟨hwin, hgr⟩ := wins_of_slots hs hself (Nat.lt_of_not_le hslots)
    have hfull : (node.clusterNodes.filter (· ∈ s)).toFinset = s := by
      ext id
      simp only [List.mem_toFinset, List.mem_filter, decide_eq_true_eq, and_iff_right_iff_imp]
      exact fun hid => List.mem_toFinset.1 (Finset.mem_of_mem_erase (hsub hid))
    exact hmin (hfull ▸ hgr ▸ h (grantTo node s) hwin)
  · intro h env hwin
    by_contra hmin
    have hslots := won_slots hs hwin
    have hle := length_grantedFrom_le env (startElection node env.startClock) 0 node.clusterNodes
    have hsub : (grantedFrom env (startElection node env.startClock) 0 node.clusterNodes).toFinset ⊆
        node.clusterNodes.toFinset.erase node.nodeId := by
      intro id hid
      obtain ⟨h1, h2⟩ := mem_grantedFrom (List.mem_toFinset.1 hid)
      exact Finset.mem_erase.2 ⟨h2, List.mem_toFinset.2 h1⟩
    have := h _ hsub hmin
    omega

/-- Ids that are all different, the node's own among them, leave no minority heavy. -/
theorem noHeavyMinority_of_nodup {node : RaftNode} (hn : node.clusterNodes.Nodup)
    (hself : node.nodeId ∈ node.clusterNodes) : NoHeavyMinority node := by
  intro s hsub hmin
  have hmem : node.nodeId ∉ s := fun h => Finset.notMem_erase _ _ (hsub h)
  have hmembers : (members node).card = node.clusterSize := by
    rw [members, Finset.insert_eq_of_mem (List.mem_toFinset.2 hself), List.toFinset_card_of_nodup hn]
    rfl
  have hslots : (node.clusterNodes.filter (· ∈ s)).length = s.card := by
    rw [← List.toFinset_card_of_nodup (hn.filter _)]
    congr 1
    ext id
    simp only [List.mem_toFinset, List.mem_filter, decide_eq_true_eq, and_iff_right_iff_imp]
    exact fun hid => List.mem_toFinset.1 (Finset.mem_of_mem_erase (hsub hid))
  have hsubset : insert node.nodeId s ⊆ members node := by
    intro id hid
    rcases Finset.mem_insert.1 hid with rfl | hid
    · exact Finset.mem_insert_self _ _
    · exact Finset.mem_insert_of_mem (Finset.mem_of_mem_erase (hsub hid))
  have hcard : ¬ (members node).card < 2 * (insert node.nodeId s).card := fun h => hmin ⟨hsubset, h⟩
  rw [hmembers, Finset.card_insert_of_notMem hmem] at hcard
  omega

/-! ## Main theorem -/

/-- Whatever ids are added to a node, every election it wins is won with more than
half of its members just when no minority of them is heavy; and two nodes with
the same members, for which this holds, cannot win without a common voter. -/
theorem election_majority_iff {node : RaftNode} (hs : node.state ≠ .leader) (ids : List CString) :
    ((∀ env, (electionIteration env (addAll node ids)).state = .leader →
        IsMajority (members (addAll node ids)) (granters env (addAll node ids))) ↔
      NoHeavyMinority (addAll node ids)) ∧
    ∀ node' env env', node'.state ≠ .leader → members node' = members (addAll node ids) →
      NoHeavyMinority (addAll node ids) → NoHeavyMinority node' →
      (electionIteration env (addAll node ids)).state = .leader → (electionIteration env' node').state = .leader →
      (granters env (addAll node ids) ∩ granters env' node').Nonempty := by
  have hs' : (addAll node ids).state ≠ .leader := by rwa [(addAll_frame node ids).1]
  refine ⟨wins_with_majority_iff hs', fun node' env env' hl hm h1 h2 hwin hwin' => ?_⟩
  have hmaj := (wins_with_majority_iff hs').2 h1 env hwin
  have hmaj' := (wins_with_majority_iff hl).2 h2 env' hwin'
  exact hmaj.inter (hm ▸ hmaj')

/-- With "A", "B" and "C" added to "A" and all votes granted, "A" wins, with a majority. -/
theorem three_nodes_majority :
    (electionIteration (votesEnv true) (addAll newNodeA [cstr "A", cstr "B", cstr "C"])).state = .leader ∧
    IsMajority (members (addAll newNodeA [cstr "A", cstr "B", cstr "C"]))
      (granters (votesEnv true) (addAll newNodeA [cstr "A", cstr "B", cstr "C"])) := by
  have hwins : (electionIteration (votesEnv true) (addAll newNodeA [cstr "A", cstr "B", cstr "C"])).state = .leader := by
    decide
  have hlight : NoHeavyMinority (addAll newNodeA [cstr "A", cstr "B", cstr "C"]) :=
    noHeavyMinority_of_nodup (by decide) (by decide)
  exact ⟨hwins, (election_majority_iff (show newNodeA.state ≠ .leader by decide) _).1.2 hlight _ hwins⟩

/-- With only "B" added to "A", "A" wins by its own vote, one of two. -/
theorem own_vote_wins :
    (electionIteration (votesEnv false) (addAll newNodeA [cstr "B"])).state = .leader ∧
    granters (votesEnv false) (addAll newNodeA [cstr "B"]) = {cstr "A"} ∧
    members (addAll newNodeA [cstr "B"]) = {cstr "A", cstr "B"} ∧
    ¬ IsMajority (members (addAll newNodeA [cstr "B"])) (granters (votesEnv false) (addAll newNodeA [cstr "B"])) :=
  ⟨by decide, by decide, by decide, fun h => absurd h.card (by decide)⟩

end XDevice
