import XDevice.Raft.Electability
/-!
# Nodes that restart

A node keeps its term, its vote and its log in memory only: the next process creates it anew,
at term zero and with no vote. So a node that votes once in each of its lives may vote twice
in a term, and nothing else can give a term two leaders.
-/
open Lib

namespace XDevice

/-! ## Model -/

/-- A step of the cluster, or the end of a node's process and the start of the next. -/
inductive RestartStep where
  | step (s : ClusterStep)
  | restart (id : CString) (clock : Clock)

def RestartStep.actor : RestartStep → CString
  | .step s => s.actor
  | .restart id _ => id

/-- A node of `q` restarts, or an election of `q` goes on. -/
def RestartStep.Elects (q : Finset CString) : RestartStep → Prop
  | .step s => s.Elects q
  | .restart id _ => id ∈ q

theorem RestartStep.Elects.actor {q : Finset CString} {s : RestartStep} (h : s.Elects q) : s.actor ∈ q := by
  cases s with
  | step s => exact ClusterStep.Elects.actor h
  | restart id clock => exact h

theorem RestartStep.Elects.mono {q q' : Finset CString} {s : RestartStep} (h : s.Elects q) (hq : q ⊆ q') : s.Elects q' := by
  cases s with
  | step s => exact ClusterStep.Elects.mono h hq
  | restart id clock => exact hq h

/-- The cluster, how often each node has restarted, and the votes with the life in which each
was cast. -/
structure RestartWorld where
  cluster : RaftCluster
  life : CString → Nat
  ballots : List ((CString × Nat) × Nat × CString)

namespace RestartWorld

/-- No node has restarted, and nobody has voted. -/
def start (c : RaftCluster) : RestartWorld := ⟨c, fun _ => 0, []⟩

/-- After a step of the cluster, the votes that are new belong to the lives of now. -/
def count (w : RestartWorld) (c : RaftCluster) : RestartWorld where
  cluster := c
  life := w.life
  ballots := (c.votes.take (c.votes.length - w.cluster.votes.length)).map (fun v => ((v.1, w.life v.1), v.2)) ++ w.ballots

/-- `xdevice_raft_destroy_node`, `xdevice_raft_create_node` and the adds; what the node had sent
is still under way. -/
def restart (ids : List CString) (w : RestartWorld) (id : CString) (clock : Clock) : Option RestartWorld :=
  (xdeviceRaftCreateNode true clock id).map fun node =>
    { w with
      cluster := w.cluster.setMember id ⟨addAll node ids, .idle⟩
      life := fun v => if v = id then w.life v + 1 else w.life v }

end RestartWorld

def restartMachine (ids : List CString) : Machine RestartWorld RestartStep Unit where
  step w
    | .step s => (clusterStep w.cluster s).map fun c => (w.count c, ())
    | .restart id clock => (w.restart ids id clock).map fun w => (w, ())

/-! ## Invariant -/

/-- The ballots are the votes of the ledger, and none is of a life to come. -/
structure RestartOk (ids : List CString) (w : RestartWorld) : Prop where
  cluster : ClusterOk ids w.cluster
  votes : w.ballots.map (fun b => (b.1.1, b.2)) = w.cluster.votes
  lives : ∀ b ∈ w.ballots, b.1.2 ≤ w.life b.1.1

section
variable {ids : List CString} {id : CString} {c : RaftCluster} {w w' : RestartWorld} {s : ClusterStep} {out : Unit}

theorem restartMachine_step :
    (restartMachine ids).step w (.step s) = some (w', out) ↔ ∃ c, clusterStep w.cluster s = some c ∧ w.count c = w' := by
  simp [restartMachine]

theorem restartMachine_restart {clock : Clock} :
    (restartMachine ids).step w (.restart id clock) = some (w', out) ↔ w.restart ids id clock = some w' := by
  simp [restartMachine]

/-- A step of the cluster has at most one ballot, of the node that takes it. -/
theorem count_ballots (hs : clusterStep w.cluster s = some c) :
    c.votes = w.cluster.votes ∧ (w.count c).ballots = w.ballots ∨
    ∃ ballot, c.votes = (s.actor, ballot) :: w.cluster.votes ∧
      (w.count c).ballots = ((s.actor, w.life s.actor), ballot) :: w.ballots := by
  rcases step_votes hs with he | ⟨ballot, he⟩
  · exact .inl ⟨he, by simp [RestartWorld.count, he]⟩
  · exact .inr ⟨ballot, he, by simp [RestartWorld.count, he]⟩

theorem RestartOk.count (hn : ids.Nodup) (h : RestartOk ids w) (hs : clusterStep w.cluster s = some c) :
    RestartOk ids (w.count c) := by
  have hok := (clusterOk_step hn h.cluster hs).1
  rcases count_ballots hs with ⟨hvotes, hballots⟩ | ⟨ballot, hvotes, hballots⟩
  · refine ⟨hok, ?_, ?_⟩
    · rw [hballots, h.votes]
      exact hvotes.symm
    · rw [hballots]
      exact h.lives
  · refine ⟨hok, ?_, ?_⟩
    · rw [hballots, List.map_cons, h.votes]
      exact hvotes.symm
    · rw [hballots]
      exact List.forall_mem_cons.2 ⟨Nat.le_refl _, h.lives⟩

/-- The votes stay in the ledger when a node restarts, and the node itself claims none. -/
theorem RestartOk.restart (hlen : ids.length ≤ xdeviceMaxNodes) (hids : ∀ id ∈ ids, id.length < xdeviceMaxNodeIdLen)
    (h : RestartOk ids w) {clock : Clock} (hs : w.restart ids id clock = some w') : RestartOk ids w' := by
  obtain ⟨node, hcreate, rfl⟩ := Option.map_eq_some_iff.1 hs
  have hmember : id ∈ ids → MemberOk ids w.cluster.votes id ⟨addAll node ids, .idle⟩ := by
    intro hmem
    obtain ⟨hown, hslots, hstate, -⟩ := created_member hlen (hids id hmem) hcreate
    exact ⟨hown, hslots, fun hl => absurd (hl.symm.trans hstate) nofun, trivial⟩
  refine ⟨h.cluster.update hmember rfl (List.Subset.refl _) rfl, h.votes, fun b hb => ?_⟩
  have hold := h.lives b hb
  dsimp only
  split <;> omega

theorem restartOk_start {c0 : RaftCluster} (hlen : ids.length ≤ xdeviceMaxNodes)
    (hids : ∀ id ∈ ids, id.length < xdeviceMaxNodeIdLen) (h0 : Started ids c0) : RestartOk ids (.start c0) :=
  ⟨clusterOk_started hlen hids h0, h0.votes.symm, nofun⟩

theorem restartOk_run (hn : ids.Nodup) (hlen : ids.length ≤ xdeviceMaxNodes)
    (hids : ∀ id ∈ ids, id.length < xdeviceMaxNodeIdLen) (h : RestartOk ids w) {steps : List RestartStep} {outs : List Unit}
    (hrun : (restartMachine ids).run w steps = some (w', outs)) : RestartOk ids w' ∧ w.ballots ⊆ w'.ballots := by
  refine Machine.Keeps.run (M := restartMachine ids) (I := fun w' => RestartOk ids w' ∧ w.ballots ⊆ w'.ballots) ?_
    ⟨h, List.Subset.refl _⟩ hrun
  rintro w1 a w2 out ⟨h1, hsub⟩ hs
  cases a with
  | step s =>
    obtain ⟨c, hstep, rfl⟩ := restartMachine_step.1 hs
    exact ⟨h1.count hn hstep, fun b hb => List.mem_append_right _ (hsub hb)⟩
  | restart id clock =>
    have hrestart := restartMachine_restart.1 hs
    have hok := h1.restart hlen hids hrestart
    obtain ⟨node, -, rfl⟩ := Option.map_eq_some_iff.1 hrestart
    exact ⟨hok, hsub⟩

/-- A vote in the ledger was cast in some life. -/
theorem RestartOk.ballot (h : RestartOk ids w) {v a : CString} {term : Nat} (hv : (v, term, a) ∈ w.cluster.votes) :
    ∃ l, ((v, l), term, a) ∈ w.ballots := by
  rw [← h.votes] at hv
  obtain ⟨⟨⟨v', l⟩, ballot⟩, hb, he⟩ := List.mem_map.1 hv
  cases he
  exact ⟨l, hb⟩

end

/-! ## Two leaders -/

section
variable {ids : List CString} {q : Finset CString} {a b : CString} {w w' : RestartWorld} {term : Nat}

/-- When every node votes once in each term of each life, two nodes that lead in the same term of
a run are the same, or some node has voted for both, in two of its lives. -/
theorem second_leader_two_lives (hn : ids.Nodup) (hlen : ids.length ≤ xdeviceMaxNodes)
    (hids : ∀ id ∈ ids, id.length < xdeviceMaxNodeIdLen) {c0 : RaftCluster} (h0 : Started ids c0)
    {steps steps' : List RestartStep} {outs outs' : List Unit}
    (hrun : (restartMachine ids).run (.start c0) steps = some (w, outs))
    (hrun' : (restartMachine ids).run w steps' = some (w', outs')) (hvotes : OneVote {b | b ∈ w'.ballots}) (ha : a ∈ ids)
    (hb : b ∈ ids) (hlead : (w.cluster.member a).node.state = .leader) (hlead' : (w'.cluster.member b).node.state = .leader)
    (hterm : (w.cluster.member a).node.currentTerm = term) (hterm' : (w'.cluster.member b).node.currentTerm = term) :
    a = b ∨ ∃ v l l', l ≠ l' ∧ ((v, l), term, a) ∈ w'.ballots ∧ ((v, l'), term, b) ∈ w'.ballots := by
  obtain ⟨hok, -⟩ := restartOk_run hn hlen hids (restartOk_start hlen hids h0) hrun
  obtain ⟨hok', hsub⟩ := restartOk_run hn hlen hids hok hrun'
  obtain ⟨s, hmaj, hs⟩ := (hok.cluster.members a ha).leading hlead
  obtain ⟨t, hmaj', ht⟩ := (hok'.cluster.members b hb).leading hlead'
  obtain ⟨v, hv⟩ := hmaj.inter hmaj'
  obtain ⟨hvs, hvt⟩ := Finset.mem_inter.1 hv
  obtain ⟨l, hfirst⟩ := hok.ballot (hs v hvs)
  obtain ⟨l', hsecond⟩ := hok'.ballot (ht v hvt)
  rw [hterm] at hfirst
  rw [hterm'] at hsecond
  by_cases hlife : l = l'
  · subst hlife
    exact .inl (hvotes (v, l) term a b (hsub hfirst) hsecond)
  · exact .inr ⟨v, l, l', hlife, hsub hfirst, hsecond⟩

theorem oneVote_list {ballots : List ((CString × Nat) × Nat × CString)}
    (h : ∀ x ∈ ballots, ∀ y ∈ ballots, x.1 = y.1 ∧ x.2.1 = y.2.1 → x.2.2 = y.2.2) : OneVote {b | b ∈ ballots} :=
  fun _ _ _ _ hx hy => h _ hx _ hy ⟨rfl, rfl⟩

/-- "A" is elected, as in `electA`. -/
theorem electA_counts : ((restartMachine threeIds).run (.start threeNodes) (electA.map .step)).isSome := by decide

def countedA : RestartWorld × List Unit :=
  ((restartMachine threeIds).run (.start threeNodes) (electA.map .step)).get electA_counts

/-- "B", which has voted for "A", restarts, asks for votes in the same term and has that of "C". -/
def electB : List RestartStep :=
  .restart (cstr "B") ⟨0, 0⟩ ::
    [ClusterStep.electionStart (cstr "B") 1000 ⟨1000, 0⟩, .sendVoteRequest (cstr "B"),
     .voteResponse (cstr "B") none ⟨0, 0⟩, .sendVoteRequest (cstr "B"), .sendVoteRequest (cstr "B"),
     .grantVote (cstr "C") ⟨1, cstr "B", 0, 0⟩, .voteResponse (cstr "B") (some ⟨1, true⟩) ⟨0, 0⟩,
     .sendVoteRequest (cstr "B")].map .step

theorem electB_counts : ((restartMachine threeIds).run countedA.1 electB).isSome := by decide

def countedB : RestartWorld × List Unit := ((restartMachine threeIds).run countedA.1 electB).get electB_counts

theorem two_leaders_two_lives : ∃ v l l', l ≠ l' ∧ ((v, l), 1, cstr "A") ∈ countedB.1.ballots ∧
    ((v, l'), 1, cstr "B") ∈ countedB.1.ballots := by
  have hone : OneVote {b | b ∈ countedB.1.ballots} := oneVote_list (by decide)
  have hrun : (restartMachine threeIds).run (.start threeNodes) (electA.map .step) = some (countedA.1, countedA.2) :=
    (Option.some_get electA_counts).symm
  have hrun' : (restartMachine threeIds).run countedA.1 electB = some (countedB.1, countedB.2) :=
    (Option.some_get electB_counts).symm
  have hlead : (countedA.1.cluster.member (cstr "A")).node.state = .leader ∧
      (countedA.1.cluster.member (cstr "A")).node.currentTerm = 1 := by decide
  have hlead' : (countedB.1.cluster.member (cstr "B")).node.state = .leader ∧
      (countedB.1.cluster.member (cstr "B")).node.currentTerm = 1 := by decide
  rcases second_leader_two_lives (by decide) (by decide) (by decide) threeNodes_started hrun hrun' hone (by decide)
    (by decide) hlead.1 hlead'.1 hlead.2 hlead'.2 with hsame | htwice
  · exact absurd hsame (by decide)
  · exact htwice

/-- The nodes of `s` have been created anew, and the others are as before. -/
structure Restarted (ids : List CString) (s : Finset CString) (w w' : RestartWorld) : Prop where
  follows : ∀ id ∈ s, Follows ids id 0 w'.cluster
  life : ∀ id ∈ s, w.life id < w'.life id
  lives : ∀ id, w.life id ≤ w'.life id
  others : ∀ id ∉ s, w'.cluster.member id = w.cluster.member id
  ballots : w'.ballots = w.ballots

/-- Any nodes can restart, one after the other. -/
theorem all_restart (hlen : ids.length ≤ xdeviceMaxNodes) (hids : ∀ id ∈ ids, id.length < xdeviceMaxNodeIdLen)
    (h : RestartOk ids w) (s : Finset CString) (hs : s ⊆ ids.toFinset) :
    ∃ w', (restartMachine ids).Reaches (RestartStep.Elects s) w w' ∧ RestartOk ids w' ∧ Restarted ids s w w' := by
  induction s using Finset.induction_on with
  | empty => exact ⟨w, .refl w, h, ⟨nofun, nofun, fun _ => Nat.le_refl _, fun _ _ => rfl, rfl⟩⟩
  | insert id s hnew ih =>
    obtain ⟨w1, hr, hok, hrestarted⟩ := ih ((Finset.subset_insert id s).trans hs)
    have hid : id.length < xdeviceMaxNodeIdLen := hids id (List.mem_toFinset.1 (hs (Finset.mem_insert_self id s)))
    obtain ⟨node, hcreate⟩ : ∃ node, xdeviceRaftCreateNode true ⟨0, 0⟩ id = some node := ⟨_, rfl⟩
    obtain ⟨w2, hw2⟩ : ∃ w2, w1.restart ids id ⟨0, 0⟩ = some w2 := by
      rw [RestartWorld.restart, hcreate]
      exact ⟨_, rfl⟩
    have hok2 := hok.restart hlen hids hw2
    have hstep : (restartMachine ids).step w1 (.restart id ⟨0, 0⟩) = some (w2, ()) := restartMachine_restart.2 hw2
    rw [RestartWorld.restart, hcreate] at hw2
    cases hw2
    refine ⟨_, (hr.mono fun a ha => ha.mono (Finset.subset_insert id s)).trans
      (.step hstep (Finset.mem_insert_self id s) (.refl _)), hok2, ?_⟩
    refine ⟨fun id' hid' => ?_, fun id' hid' => ?_, fun id' => ?_, fun id' hid' => ?_, hrestarted.ballots⟩
    · by_cases he : id' = id
      · obtain ⟨hown, hslots, hstate, hzero⟩ := created_member hlen hid hcreate
        rw [he]
        exact .of_member (setMember_self _ _ _) hown hslots (by simp [hstate]) hzero
      · obtain ⟨hidle, hown, hslots, hstate, hzero⟩ := hrestarted.follows id' (Finset.mem_of_mem_insert_of_ne hid' he)
        constructor <;> rw [setMember_other _ he] <;> assumption
    · have hlives := hrestarted.lives id'
      dsimp only
      split
      · omega
      · rename_i hne
        exact hrestarted.life id' (Finset.mem_of_mem_insert_of_ne hid' hne)
    · have hlives := hrestarted.lives id'
      dsimp only
      split <;> omega
    · obtain ⟨hne, hold⟩ := not_or.1 (mt Finset.mem_insert.2 hid')
      rw [setMember_other _ hne]
      exact hrestarted.others id' hold

/-- The steps of the cluster add ballots of the lives of now. -/
structure Counted (w : RestartWorld) (c : RaftCluster) (w' : RestartWorld) : Prop where
  cluster : w'.cluster = c
  life : w'.life = w.life
  ballots : ∃ added, w'.ballots = added ++ w.ballots ∧ c.votes = added.map (fun b => (b.1.1, b.2)) ++ w.cluster.votes ∧
    ∀ b ∈ added, b.1.2 = w.life b.1.1

/-- What nodes do without a restart, they do in the lives of now. -/
theorem counts_run (ids : List CString) {A : ClusterStep → Prop} {B : RestartStep → Prop} (hsteps : ∀ s, A s → B (.step s))
    {c : RaftCluster} (h : clusterMachine.Reaches A w.cluster c) :
    ∃ w', (restartMachine ids).Reaches B w w' ∧ Counted w c w' := by
  have hstart : Counted w w.cluster w := ⟨rfl, rfl, [], rfl, rfl, nofun⟩
  refine h.lift (R := Counted w) ?_ hstart
  rintro c1 w1 a c2 out ha ⟨rfl, hlife, added, hballots, hvotes, hall⟩ hs
  obtain ⟨c3, hstep, he⟩ := Option.map_eq_some_iff.1 hs
  cases he
  have hcount : (restartMachine ids).step w1 (.step a) = some (w1.count c2, ()) := restartMachine_step.2 ⟨c2, hstep, rfl⟩
  refine ⟨w1.count c2, .step hcount (hsteps a ha) (.refl _), rfl, hlife, ?_⟩
  rcases count_ballots hstep with ⟨hsame, hnone⟩ | ⟨ballot, hmore, hnew⟩
  · exact ⟨added, hnone.trans hballots, hsame.trans hvotes, hall⟩
  · refine ⟨((a.actor, w1.life a.actor), ballot) :: added, ?_, ?_, List.forall_mem_cons.2 ⟨congrFun hlife _, hall⟩⟩
    · rw [hnew, hballots]
      rfl
    · rw [hmore, hvotes]
      rfl

/-- The ballots that are counted after a restart are of lives that had none. -/
theorem Counted.oneVote {c : RaftCluster} {w1 : RestartWorld} (hok : RestartOk ids w) (hvotes : OneVote {b | b ∈ w.ballots})
    {terms : Set Nat} (hrestarted : Restarted ids q w w1) (hadded : VotesAdded q b terms w1.cluster c)
    (h : Counted w1 c w') : OneVote {b | b ∈ w'.ballots} := by
  obtain ⟨added, hballots, hcount, hlives⟩ := h.ballots
  obtain ⟨votes, hnew, hall⟩ := hadded.votes
  have heq : added.map (fun b => (b.1.1, b.2)) = votes := List.append_cancel_right (hcount.symm.trans hnew)
  have hcases : ∀ v l t x, ((v, l), t, x) ∈ w'.ballots →
      ((v, l), t, x) ∈ w.ballots ∧ l ≤ w.life v ∨ w.life v < l ∧ x = b := by
    intro v l t x hx
    rw [hballots] at hx
    rcases List.mem_append.1 hx with hx | hx
    · have hmem : (v, t, x) ∈ votes := heq ▸ List.mem_map_of_mem hx
      have hlife : l = w1.life v := hlives _ hx
      obtain ⟨hvoter, -, hb⟩ := hall _ hmem
      exact .inr ⟨hlife ▸ hrestarted.life v hvoter, hb⟩
    · rw [hrestarted.ballots] at hx
      exact .inl ⟨hx, hok.lives _ hx⟩
  rintro ⟨v, l⟩ t x y hx hy
  rcases hcases v l t x hx with ⟨hx, hle⟩ | ⟨hlt, rfl⟩ <;> rcases hcases v l t y hy with ⟨hy, hle'⟩ | ⟨hlt', rfl⟩
  · exact hvotes (v, l) t x y hx hy
  · omega
  · omega
  · rfl

/-- Whoever leads, a majority of the other nodes can restart and then elect any one of them in
the same term, although none of them votes twice in one life. When it is a node of the cluster
that leads, nobody has to be told of a term. -/
theorem restarted_majority_elects (hn : ids.Nodup) (hlen : ids.length ≤ xdeviceMaxNodes)
    (hids : ∀ id ∈ ids, id.length < xdeviceMaxNodeIdLen) {c0 : RaftCluster} (h0 : Started ids c0)
    {steps : List RestartStep} {outs : List Unit} (hrun : (restartMachine ids).run (.start c0) steps = some (w, outs))
    (hvotes : OneVote {b | b ∈ w.ballots}) (hlead : (w.cluster.member a).node.state = .leader)
    (hterm : (w.cluster.member a).node.currentTerm = term) (hpos : 0 < term) (hword : term < 2 ^ 64)
    (hq : IsMajority ids.toFinset q) (haq : a ∉ q) (hb : b ∈ q) :
    ∃ w', (restartMachine ids).Reaches (fun s => s.actor ∈ q ∧ (a ∈ ids → s.Elects q)) w w' ∧
      OneVote {b | b ∈ w'.ballots} ∧
      ((w'.cluster.member a).node.state = .leader ∧ (w'.cluster.member a).node.currentTerm = term) ∧
      (w'.cluster.member b).node.state = .leader ∧ (w'.cluster.member b).node.currentTerm = term := by
  obtain ⟨hok, -⟩ := restartOk_run hn hlen hids (restartOk_start hlen hids h0) hrun
  obtain ⟨w1, hr, hok1, hrestarted⟩ := all_restart hlen hids hok q hq.subset
  have hne : a ≠ b := fun he => haq (he ▸ hb)
  have hbehind : ∀ id ∈ q, (w1.cluster.member id).node.currentTerm < term := by
    intro id hid
    rw [(hrestarted.follows id hid).term]
    exact hpos
  obtain ⟨c2, hr', hadded, hlead', hterm'⟩ : ∃ c2,
      clusterMachine.Reaches (fun s => s.actor ∈ q ∧ (a ∈ ids → s.Elects q)) w1.cluster c2 ∧
      VotesAdded q b Set.univ w1.cluster c2 ∧
      (c2.member b).node.state = .leader ∧ (c2.member b).node.currentTerm = term := by
    by_cases ha : a ∈ ids
    · have hpeers : 1 < ids.length := by
        have hcard : 1 < ids.toFinset.card :=
          Finset.one_lt_card.2 ⟨a, List.mem_toFinset.2 ha, b, hq.subset hb, hne⟩
        rwa [List.toFinset_card_of_nodup hn] at hcard
      obtain ⟨c2, hr', hrest⟩ := (hrestarted.follows b hb).elected hn hpeers hq hb hbehind hword
      exact ⟨c2, hr'.mono fun _ hs => ⟨hs.actor, fun _ => hs⟩, hrest⟩
    · obtain ⟨c2, hr', hadded, hrest⟩ := majority_elects hn hok1.cluster hq hb hbehind hword
      exact ⟨c2, hr'.mono fun _ hs => ⟨hs, fun hmem => absurd hmem ha⟩, hadded.mono (Set.subset_univ _), hrest⟩
  obtain ⟨w2, hr2, hcounted⟩ := counts_run ids (B := fun s => s.actor ∈ q ∧ (a ∈ ids → s.Elects q)) (fun _ hs => hs) hr'
  have hsame : w2.cluster.member a = w.cluster.member a := by
    rw [hcounted.cluster, hadded.member a hne, hrestarted.others a haq]
  refine ⟨w2, (hr.mono fun _ hs => ⟨hs.actor, fun _ => hs⟩).trans hr2, ?_, ?_, ?_⟩
  · exact hcounted.oneVote hok hvotes hrestarted hadded
  · rw [hsame]
    exact ⟨hlead, hterm⟩
  · rw [hcounted.cluster]
    exact ⟨hlead', hterm'⟩

end

theorem restarted_two_elect : ∃ w',
    (restartMachine threeIds).Reaches (RestartStep.Elects {cstr "B", cstr "C"}) countedA.1 w' ∧
    OneVote {b | b ∈ w'.ballots} ∧
    ((w'.cluster.member (cstr "A")).node.state = .leader ∧ (w'.cluster.member (cstr "A")).node.currentTerm = 1) ∧
    (w'.cluster.member (cstr "B")).node.state = .leader ∧ (w'.cluster.member (cstr "B")).node.currentTerm = 1 := by
  have hone : OneVote {b | b ∈ countedA.1.ballots} := oneVote_list (by decide)
  have hrun : (restartMachine threeIds).run (.start threeNodes) (electA.map .step) = some (countedA.1, countedA.2) :=
    (Option.some_get electA_counts).symm
  have hlead : (countedA.1.cluster.member (cstr "A")).node.state = .leader ∧
      (countedA.1.cluster.member (cstr "A")).node.currentTerm = 1 := by decide
  obtain ⟨w', hr, hrest⟩ := restarted_majority_elects (q := {cstr "B", cstr "C"}) (b := cstr "B") (by decide) (by decide)
    (by decide) threeNodes_started hrun hone hlead.1 hlead.2 Nat.one_pos (by decide) ⟨by decide, by decide⟩ (by decide)
    (by decide)
  exact ⟨w', hr.mono fun _ hs => hs.2 (by decide), hrest⟩

end XDevice
