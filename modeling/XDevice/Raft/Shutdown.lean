import XDevice.Raft.Lifecycle
/-!
# Destroying a node

`xdevice_raft_destroy_node` clears `running` and waits for both threads. Each of them has a
few turns left, and the mutex is given back in between, so the wait ends. After a start that
failed half-way it is one join too many.
-/
open Lib

namespace XDevice

/-! ## Turns -/

namespace WorkerPhase

/-- How many turns a thread still takes once `running` is off. -/
def turnsLeft : WorkerPhase → Nat
  | .atLock => 4
  | .inBody => 3
  | .asleep => 2
  | .atLoop => 1
  | .absent | .exited | .joined => 0

end WorkerPhase

section
variable {o : CreateOutcome} {p p' : NodeProcess} {w : Worker} {turn : Turn}

namespace NodeProcess

/-- `xdevice_raft_destroy_node` has told the threads to stop. -/
def Stopping (p : NodeProcess) : Prop := p.running = false ∧ 5 ≤ p.main.rank

def turnsLeft (p : NodeProcess) : Nat :=
  (9 - p.main.rank) + (p.phase .election).turnsLeft + (p.phase .heartbeat).turnsLeft

end NodeProcess

theorem turnsLeft_setPhase (p : NodeProcess) (w : Worker) (q : WorkerPhase) :
    (p.setPhase w q).turnsLeft + (p.phase w).turnsLeft = p.turnsLeft + q.turnsLeft := by
  cases w <;> simp [NodeProcess.turnsLeft, NodeProcess.setPhase] <;> omega

theorem lock_cases {owner : Option Worker} {next : NodeProcess → NodeProcess} (hs : p.lock owner next = some (p', turn)) :
    turn = .blocked ∧ p' = p ∨ turn = .moved ∧ p.mutex = .unlocked ∧ p' = next { p with mutex := .locked owner } := by
  obtain ⟨node, -, hs⟩ := Option.bind_eq_some_iff.1 hs
  split at hs
  · rename_i hm
    cases hs
    exact .inr ⟨rfl, hm, rfl⟩
  · cases hs
    exact .inl ⟨rfl, rfl⟩
  · cases hs

theorem join_cases {next : MainPhase} (hs : p.join w next = some (p', turn)) :
    turn = .blocked ∧ p' = p ∨ turn = .moved ∧ p.phase w = .exited ∧ p' = (p.setPhase w .joined).goto next := by
  unfold NodeProcess.join at hs
  split at hs
  · cases hs
  · cases hs
  · rename_i hphase
    cases hs
    exact .inr ⟨rfl, hphase, rfl⟩
  · cases hs
    exact .inl ⟨rfl, rfl⟩

/-- A turn that is used is one less. -/
theorem workerStep_turns {iteration : RaftNode → Option RaftNode} (hstop : p.Stopping)
    (hs : p.workerStep w iteration = some (p', turn)) :
    p'.Stopping ∧ p'.turnsLeft + (if turn = .moved then 1 else 0) = p.turnsLeft := by
  have hset := fun q => turnsLeft_setPhase p w q
  unfold NodeProcess.workerStep at hs
  cases hphase : p.phase w with
  | absent | exited | joined =>
    rw [hphase] at hs
    cases hs
    exact ⟨hstop, rfl⟩
  | atLoop =>
    rw [hphase] at hs hset
    obtain ⟨node, -, hs⟩ := Option.map_eq_some_iff.1 hs
    rw [hstop.1, if_neg Bool.false_ne_true] at hs
    cases hs
    exact ⟨hstop, hset .exited⟩
  | asleep =>
    rw [hphase] at hs hset
    cases hs
    have := hset .atLoop
    simp only [WorkerPhase.turnsLeft] at this
    exact ⟨hstop, by rw [if_pos rfl]; omega⟩
  | atLock =>
    rw [hphase] at hs hset
    rcases lock_cases hs with ⟨rfl, rfl⟩ | ⟨rfl, -, rfl⟩
    · exact ⟨hstop, rfl⟩
    · have hbody : ({ p with mutex := .locked (some w) }.setPhase w .inBody).turnsLeft =
          (p.setPhase w .inBody).turnsLeft := rfl
      have := hset .inBody
      simp only [WorkerPhase.turnsLeft] at this
      exact ⟨hstop, by rw [hbody, if_pos rfl]; omega⟩
  | inBody =>
    rw [hphase] at hs hset
    obtain ⟨node, -, hs⟩ := Option.bind_eq_some_iff.1 hs
    obtain ⟨node', -, hs⟩ := Option.map_eq_some_iff.1 hs
    cases hs
    have hsleep : ({ p with node := some node', mutex := .unlocked }.setPhase w .asleep).turnsLeft =
        (p.setPhase w .asleep).turnsLeft := rfl
    have := hset .asleep
    simp only [WorkerPhase.turnsLeft] at this
    exact ⟨hstop, by rw [hsleep, if_pos rfl]; omega⟩

theorem turnsLeft_goto (p : NodeProcess) (next : MainPhase) (hrank : p.main.rank + 1 = next.rank) (hnine : next.rank ≤ 9) :
    (p.goto next).turnsLeft + 1 = p.turnsLeft := by
  simp only [NodeProcess.turnsLeft, NodeProcess.goto]
  omega

theorem joinHandle_turns {next : MainPhase} (hstop : p.Stopping) (hrank : p.main.rank + 1 = next.rank)
    (hnine : next.rank ≤ 9)
    (hs : p.joinHandle w next = some (p', turn)) :
    p'.Stopping ∧ p'.turnsLeft + (if turn = .moved then 1 else 0) = p.turnsLeft := by
  have hfive := hstop.2
  obtain ⟨node, -, hs⟩ := Option.bind_eq_some_iff.1 hs
  split at hs
  · cases hs
    exact ⟨⟨hstop.1, by simp only [NodeProcess.goto]; omega⟩, turnsLeft_goto p next hrank hnine⟩
  · rcases join_cases hs with ⟨rfl, rfl⟩ | ⟨rfl, hphase, rfl⟩
    · exact ⟨hstop, rfl⟩
    · have hset := turnsLeft_setPhase p w .joined
      rw [hphase] at hset
      simp only [WorkerPhase.turnsLeft] at hset
      have hgoto := turnsLeft_goto (p.setPhase w .joined) next hrank hnine
      exact ⟨⟨hstop.1, by simp only [NodeProcess.goto]; omega⟩, by rw [if_pos rfl]; omega⟩
  · cases hs

theorem mainStep_turns {gRunning : Bool} (hstop : p.Stopping) (hs : p.mainStep o gRunning = some (p', turn)) :
    p'.Stopping ∧ p'.turnsLeft + (if turn = .moved then 1 else 0) = p.turnsLeft := by
  have hfive := hstop.2
  unfold NodeProcess.mainStep at hs
  cases hmain : p.main with
  | startNode | createElection | createHeartbeat | undoRunning | undoJoin | looping | atLock | readingState | stopThreads =>
    rw [hmain] at hfive
    simp [MainPhase.rank] at hfive
  | joinElection =>
    rw [hmain] at hs
    exact joinHandle_turns hstop (by rw [hmain]; rfl) (by decide) hs
  | joinHeartbeat =>
    rw [hmain] at hs
    exact joinHandle_turns hstop (by rw [hmain]; rfl) (by decide) hs
  | destroyMutex =>
    rw [hmain] at hs
    obtain ⟨node, -, hs⟩ := Option.bind_eq_some_iff.1 hs
    split at hs
    · cases hs
      exact ⟨⟨hstop.1, (by decide : 5 ≤ MainPhase.freeNode.rank)⟩,
        turnsLeft_goto p .freeNode (by rw [hmain]; rfl) (by decide)⟩
    · cases hs
  | freeNode =>
    rw [hmain] at hs
    obtain ⟨node, -, hs⟩ := Option.map_eq_some_iff.1 hs
    cases hs
    exact ⟨⟨hstop.1, (by decide : 5 ≤ MainPhase.ended.rank)⟩, turnsLeft_goto p .ended (by rw [hmain]; rfl) (by decide)⟩
  | ended =>
    rw [hmain] at hs
    cases hs
    exact ⟨hstop, rfl⟩

theorem step_turns (a : ProcessStep) (hstop : p.Stopping) (hs : (processMachine o).step p a = some (p', turn)) :
    p'.Stopping ∧ p'.turnsLeft + (if turn = .moved then 1 else 0) = p.turnsLeft := by
  cases a with
  | main gRunning => exact mainStep_turns hstop hs
  | election env => exact workerStep_turns hstop hs
  | heartbeat env => exact workerStep_turns hstop hs

theorem run_turns {steps : List ProcessStep} {turns : List Turn} (hstop : p.Stopping)
    (hrun : (processMachine o).run p steps = some (p', turns)) :
    p'.Stopping ∧ p'.turnsLeft + turns.count .moved = p.turnsLeft := by
  induction steps generalizing p turns with
  | nil =>
    cases hrun
    exact ⟨hstop, rfl⟩
  | cons a steps ih =>
    obtain ⟨p1, turn, turns, hs, hrest, rfl⟩ := Machine.run_cons_eq_some.1 hrun
    obtain ⟨hstop1, hone⟩ := step_turns a hstop hs
    obtain ⟨hstop2, hmore⟩ := ih hstop1 hrest
    refine ⟨hstop2, ?_⟩
    rw [List.count_cons]
    simp only [beq_iff_eq]
    omega

/-- A thread goes on, unless it has to wait for the mutex. -/
theorem ProcessOk.worker_progress (h : ProcessOk o p) (hlive : (p.phase w).live = true) (hexited : p.phase w ≠ .exited)
    (hfree : p.phase w = .inBody ∨ p.mutex = .unlocked) : ∃ a p', (processMachine o).step p a = some (p', .moved) := by
  obtain ⟨node, hnode, hok, hwin⟩ := h.live_node hlive
  have hstep : ∀ iteration : RaftNode → Option RaftNode, (∃ node', iteration node = some node') →
      ∃ p', p.workerStep w iteration = some (p', .moved) := by
    rintro iteration ⟨node', hit⟩
    unfold NodeProcess.workerStep
    cases hphase : p.phase w with
    | absent | joined =>
      rw [hphase] at hlive
      cases hlive
    | exited => exact absurd hphase hexited
    | atLoop => exact ⟨_, by rw [hnode]; rfl⟩
    | asleep => exact ⟨_, rfl⟩
    | atLock =>
      have hunlocked := hfree.resolve_left (by simp [hphase])
      dsimp only [NodeProcess.lock]
      rw [hnode, hunlocked]
      exact ⟨_, rfl⟩
    | inBody =>
      dsimp only
      rw [hnode, Option.bind_some, hit]
      exact ⟨_, rfl⟩
  cases w with
  | election =>
    obtain ⟨p', hs⟩ := hstep (fun node => some (electionIteration emptyElectionEnv node)) ⟨_, rfl⟩
    exact ⟨.election emptyElectionEnv, p', hs⟩
  | heartbeat =>
    obtain ⟨node', hit, -⟩ := heartbeatIteration_ok hok hwin ⟨0, fun _ _ => none, fun _ => ⟨0, 0⟩⟩
    obtain ⟨p', hs⟩ := hstep _ ⟨node', hit⟩
    exact ⟨.heartbeat _, p', hs⟩

/-- `main` goes on when the thread it waits for has run out. -/
theorem ProcessOk.join_progress (h : ProcessOk o p) {next : MainPhase} (hrank : p.main.rank + 1 = w.joined)
    (hrest : ∀ v, (p.phase v).live = true → p.phase v = .exited) : ∃ p', p.joinHandle w next = some (p', .moved) := by
  have hseven := w.joined_le
  obtain ⟨node, hnode, -⟩ := h.node fun hended => by
    have hnine : p.main.rank = 9 := congrArg MainPhase.rank hended
    omega
  have hhandle := h.handle w
  have hfits := h.fits w
  unfold WorkerPhase.Fits at hfits
  unfold NodeProcess.joinHandle
  rw [hnode, Option.bind_some, hhandle]
  split at hfits
  · rename_i hmade
    rw [if_pos (by omega)] at hfits
    rw [if_pos hmade]
    dsimp only [NodeProcess.join]
    rw [hrest w hfits]
    exact ⟨_, rfl⟩
  · rename_i hmade
    rw [if_neg hmade]
    exact ⟨_, rfl⟩

/-- Somebody can go on until the node is freed. -/
theorem ProcessOk.progress (h : ProcessOk o p) (hstop : p.Stopping) (hended : p.main ≠ .ended) :
    ∃ a p', (processMachine o).step p a = some (p', .moved) := by
  have hfive := hstop.2
  by_cases hbody : ∃ v, p.phase v = .inBody
  · -- who holds the mutex
    obtain ⟨v, hv⟩ := hbody
    exact h.worker_progress (w := v) (by rw [hv]; rfl) (by simp [hv]) (.inl hv)
  by_cases hrest : ∃ v, (p.phase v).live = true ∧ p.phase v ≠ .exited
  · obtain ⟨v, hlive, hexited⟩ := hrest
    have hrank := (h.live hlive).2.2
    have hseven := v.joined_le
    refine h.worker_progress hlive hexited (.inr ?_)
    have hmutex := h.mutex
    cases hm : p.mutex with
    | unlocked => rfl
    | destroyed =>
      rw [hm] at hmutex
      simp only [MutexFits] at hmutex
      omega
    | locked owner =>
      rw [hm] at hmutex
      cases owner with
      | none =>
        have hthree : p.main.rank = 3 := congrArg MainPhase.rank hmutex.1
        omega
      | some u => exact absurd ⟨u, (hmutex.2.2 u).2 rfl⟩ hbody
  · -- both threads have run out, and `main` goes on
    have hexited : ∀ v, (p.phase v).live = true → p.phase v = .exited := fun v hlive => by
      by_contra hne
      exact hrest ⟨v, hlive, hne⟩
    suffices hmove : ∃ p', p.mainStep o false = some (p', .moved) by
      obtain ⟨p', hs⟩ := hmove
      exact ⟨.main false, p', hs⟩
    obtain ⟨node, hnode, -⟩ := h.node hended
    unfold NodeProcess.mainStep
    cases hmain : p.main with
    | startNode | createElection | createHeartbeat | undoRunning | undoJoin | looping | atLock | readingState
    | stopThreads =>
      rw [hmain] at hfive
      simp [MainPhase.rank] at hfive
    | ended => exact absurd hmain hended
    | joinElection => exact h.join_progress (by rw [hmain]; rfl) hexited
    | joinHeartbeat => exact h.join_progress (by rw [hmain]; rfl) hexited
    | destroyMutex =>
      dsimp only
      rw [hnode, h.unlocked hmain]
      exact ⟨_, rfl⟩
    | freeNode =>
      dsimp only
      rw [hnode]
      exact ⟨_, rfl⟩

end

/-- Once `xdevice_raft_destroy_node` has told the threads to stop, every order of steps takes
at most twelve turns more, and the node is freed when nobody can go on. -/
theorem destroy_ends {o : CreateOutcome} (hclean : o.Clean)
    {avail : Bool} {clock : Clock} {nodeId : CString} {node : RaftNode}
    (hnew : xdeviceRaftCreateNode avail clock nodeId = some node) {ids : List CString} {steps : List ProcessStep}
    {p : NodeProcess} {turns : List Turn} (hrun : (processMachine o).run (.start (addAll node ids)) steps = some (p, turns))
    (hmain : p.main = .joinElection) {steps' : List ProcessStep} {p' : NodeProcess} {turns' : List Turn}
    (hrun' : (processMachine o).run p steps' = some (p', turns')) :
    turns'.count .moved ≤ 12 ∧
      (p'.main = .ended ∧ p'.node = none ∨ ∃ a p'', (processMachine o).step p' a = some (p'', .moved)) := by
  obtain ⟨hok, hs⟩ := nodeOk_addAll hnew ids
  have hkeeps : (processMachine o).Keeps (ProcessOk o) := by
    intro q a q' turn hq hstep
    obtain ⟨q'', turn', hstep', hq'⟩ := hq.step hclean a
    rw [hstep] at hstep'
    cases hstep'
    exact hq'
  have hp := hkeeps.run (processOk_start hok hs) hrun
  have hstop : p.Stopping := ⟨hp.stopped (by rw [hmain]; decide), by rw [hmain]; decide⟩
  obtain ⟨hstop', hturns⟩ := run_turns hstop hrun'
  have hp' := hkeeps.run hp hrun'
  refine ⟨?_, ?_⟩
  · -- four turns of `main`, and four of each thread
    have hmost : ∀ q : WorkerPhase, q.turnsLeft ≤ 4 := by
      intro q
      cases q <;> decide
    have he := hmost (p.phase .election)
    have hh := hmost (p.phase .heartbeat)
    have hrank : p.main.rank = 5 := by rw [hmain]; rfl
    unfold NodeProcess.turnsLeft at hturns
    omega
  · by_cases hended : p'.main = .ended
    · exact .inl ⟨hended, hp'.freed hended⟩
    · exact .inr (hp'.progress hstop' hended)

/-- Both threads run out, and `main` joins both. -/
theorem destroy_ends_alone :
    ∃ p turns p' turns', (processMachine ⟨fun _ => true, fun _ => false⟩).run (.start (addAll newNodeA [])) (mainSteps 5) =
        some (p, turns) ∧ p.main = .joinElection ∧
      (processMachine ⟨fun _ => true, fun _ => false⟩).run p
        ([.election emptyElectionEnv, .heartbeat ⟨0, fun _ _ => none, fun _ => ⟨0, 0⟩⟩] ++ mainSteps 4) = some (p', turns') ∧
      turns'.count .moved = 6 ∧ turns'.count .moved ≤ 12 ∧ (p'.main = .ended ∧ p'.node = none ∨
        ∃ a p'', (processMachine ⟨fun _ => true, fun _ => false⟩).step p' a = some (p'', .moved)) := by
  obtain ⟨⟨p, turns⟩, hrun, hmain, ⟨p', turns'⟩, hrun', hcount⟩ : ∃ r, (processMachine ⟨fun _ => true, fun _ => false⟩).run
      (.start (addAll newNodeA [])) (mainSteps 5) = some r ∧ r.1.main = .joinElection ∧
      ∃ r', (processMachine ⟨fun _ => true, fun _ => false⟩).run r.1
        ([.election emptyElectionEnv, .heartbeat ⟨0, fun _ _ => none, fun _ => ⟨0, 0⟩⟩] ++ mainSteps 4) = some r' ∧
        r'.2.count .moved = 6 := ⟨_, rfl, rfl, _, rfl, by decide⟩
  obtain ⟨hle, hends⟩ := destroy_ends (o := ⟨fun _ => true, fun _ => false⟩) rfl
    (rfl : xdeviceRaftCreateNode true ⟨0, 0⟩ (cstr "A") = some newNodeA) hrun hmain hrun'
  exact ⟨p, turns, p', turns', hrun, hmain, hrun', hcount, hle, hends⟩

/-! ## A node that did not start -/

/-- Where `main` is when the second thread could not be created, and what it has joined by then. -/
structure StartFailed (p : NodeProcess) : Prop where
  node : p.node.isSome = true
  path : p.main = .startNode ∨ p.main = .createElection ∨ p.main = .createHeartbeat ∨ p.main = .undoRunning ∨
    p.main = .undoJoin ∨ p.main = .stopThreads ∨ p.main = .joinElection
  handle : p.main ≠ .startNode → p.main ≠ .createElection → p.handle .election = .thread
  joined : p.main = .stopThreads ∨ p.main = .joinElection → p.phase .election = .joined

section
variable {o : CreateOutcome} {p p' : NodeProcess} {w : Worker} {turn : Turn}

/-- A thread leaves `main` where it is, and stays joined. -/
theorem workerStep_frame {iteration : RaftNode → Option RaftNode} (hnode : p.node.isSome = true)
    (hs : p.workerStep w iteration = some (p', turn)) :
    p'.node.isSome = true ∧ p'.main = p.main ∧ p'.handle = p.handle ∧
      ∀ v, p.phase v = .joined → p'.phase v = .joined := by
  have hset : ∀ q, p.phase w ≠ .joined → ∀ v, p.phase v = .joined → (p.setPhase w q).phase v = .joined := by
    intro q hw v hv
    have hvw : v ≠ w := by
      rintro rfl
      exact hw hv
    rw [setPhase_other p q hvw]
    exact hv
  unfold NodeProcess.workerStep at hs
  cases hphase : p.phase w with
  | absent | exited | joined =>
    rw [hphase] at hs
    cases hs
    exact ⟨hnode, rfl, rfl, fun _ hv => hv⟩
  | atLoop =>
    rw [hphase] at hs
    obtain ⟨node, -, hs⟩ := Option.map_eq_some_iff.1 hs
    cases hs
    exact ⟨hnode, rfl, rfl, hset _ (by simp [hphase])⟩
  | asleep =>
    rw [hphase] at hs
    cases hs
    exact ⟨hnode, rfl, rfl, hset _ (by simp [hphase])⟩
  | atLock =>
    rw [hphase] at hs
    rcases lock_cases hs with ⟨rfl, rfl⟩ | ⟨rfl, -, rfl⟩
    · exact ⟨hnode, rfl, rfl, fun _ hv => hv⟩
    · exact ⟨hnode, rfl, rfl, hset .inBody (by simp [hphase])⟩
  | inBody =>
    rw [hphase] at hs
    obtain ⟨node, -, hs⟩ := Option.bind_eq_some_iff.1 hs
    obtain ⟨node', -, hs⟩ := Option.map_eq_some_iff.1 hs
    cases hs
    exact ⟨rfl, rfl, rfl, hset .asleep (by simp [hphase])⟩

theorem StartFailed.worker (h : StartFailed p) {iteration : RaftNode → Option RaftNode}
    (hs : p.workerStep w iteration = some (p', turn)) : StartFailed p' := by
  obtain ⟨hnode, hmain, hhandle, hjoined⟩ := workerStep_frame h.node hs
  refine ⟨hnode, ?_, ?_, ?_⟩
  · rw [hmain]
    exact h.path
  · rw [hmain, hhandle]
    exact h.handle
  · rw [hmain]
    exact fun hlate => hjoined _ (h.joined hlate)

/-- `main` goes as far as the second join of the first thread. -/
theorem StartFailed.main (he : o.created .election = true) (hh : o.created .heartbeat = false) (h : StartFailed p)
    {gRunning : Bool} (hs : p.mainStep o gRunning = some (p', turn)) : StartFailed p' := by
  obtain ⟨node, hnode⟩ := Option.isSome_iff_exists.1 h.node
  have hpath := h.path
  unfold NodeProcess.mainStep at hs
  cases hmain : p.main with
  | looping | atLock | readingState | joinHeartbeat | destroyMutex | freeNode | ended =>
    simp [hmain] at hpath
  | startNode =>
    rw [hmain, hnode] at hs
    cases hs
    exact ⟨rfl, .inr (.inl rfl), fun _ hne => absurd rfl hne, by simp [NodeProcess.goto]⟩
  | createElection =>
    rw [hmain] at hs
    unfold NodeProcess.create at hs
    dsimp only at hs
    rw [hnode, Option.map_some, if_pos he] at hs
    cases hs
    exact ⟨h.node, .inr (.inr (.inl rfl)), fun _ _ => setHandle_self p .election .thread, by simp [NodeProcess.goto]⟩
  | createHeartbeat =>
    rw [hmain] at hs
    unfold NodeProcess.create at hs
    dsimp only at hs
    rw [hnode, Option.map_some, if_neg (by simp [hh])] at hs
    cases hs
    have hhandle := h.handle (by simp [hmain]) (by simp [hmain])
    refine ⟨?_, .inr (.inr (.inr (.inl rfl))), fun _ _ => ?_, by simp [NodeProcess.goto]⟩
    · split <;> exact h.node
    · split
      · exact (setHandle_other p .junk (v := .election) (w := .heartbeat) (by decide)).trans hhandle
      · exact hhandle
  | undoRunning =>
    rw [hmain, hnode] at hs
    cases hs
    have hhandle := h.handle (by simp [hmain]) (by simp [hmain])
    exact ⟨rfl, .inr (.inr (.inr (.inr (.inl rfl)))), fun _ _ => hhandle, by simp [NodeProcess.goto]⟩
  | undoJoin =>
    rw [hmain] at hs
    dsimp only at hs
    rw [hnode, Option.bind_some] at hs
    have hhandle := h.handle (by simp [hmain]) (by simp [hmain])
    rcases join_cases hs with ⟨rfl, rfl⟩ | ⟨rfl, -, rfl⟩
    · exact h
    · exact ⟨h.node, .inr (.inr (.inr (.inr (.inr (.inl rfl))))), fun _ _ => hhandle,
        fun _ => setPhase_self p .election .joined⟩
  | stopThreads =>
    rw [hmain, hnode] at hs
    cases hs
    have hhandle := h.handle (by simp [hmain]) (by simp [hmain])
    exact ⟨rfl, .inr (.inr (.inr (.inr (.inr (.inr rfl))))), fun _ _ => hhandle, fun _ => h.joined (.inl hmain)⟩
  | joinElection =>
    rw [hmain] at hs
    unfold NodeProcess.joinHandle at hs
    dsimp only at hs
    rw [hnode, Option.bind_some, h.handle (by simp [hmain]) (by simp [hmain])] at hs
    dsimp only [NodeProcess.join] at hs
    rw [h.joined (.inr hmain)] at hs
    cases hs

end

/-- When the second thread could not be created, no order of steps brings `main` to its end: it
stops short of joining the first thread once more, which is undefined. -/
theorem failed_start_never_ends {o : CreateOutcome} (he : o.created .election = true) (hh : o.created .heartbeat = false)
    {node : RaftNode} {steps : List ProcessStep} {p : NodeProcess} {turns : List Turn}
    (hrun : (processMachine o).run (.start node) steps = some (p, turns)) :
    p.node ≠ none ∧ p.main ≠ .ended ∧ (p.main = .joinElection → ∀ gRunning, p.mainStep o gRunning = none) := by
  have hkeeps : (processMachine o).Keeps StartFailed := by
    intro q a q' turn hq hs
    cases a with
    | main gRunning => exact hq.main he hh hs
    | election env => exact hq.worker hs
    | heartbeat env => exact hq.worker hs
  have hp := hkeeps.run ⟨rfl, .inl rfl, fun hne => absurd rfl hne, by simp [NodeProcess.start]⟩ hrun
  refine ⟨Option.isSome_iff_ne_none.1 hp.node, fun hended => ?_, fun hmain gRunning => ?_⟩
  · have hpath := hp.path
    simp [hended] at hpath
  · obtain ⟨node', hnode⟩ := Option.isSome_iff_exists.1 hp.node
    unfold NodeProcess.mainStep NodeProcess.joinHandle
    rw [hmain]
    dsimp only
    rw [hnode, Option.bind_some, hp.handle (by simp [hmain]) (by simp [hmain])]
    dsimp only [NodeProcess.join]
    rw [hp.joined (.inr hmain)]

theorem failed_start_never_ends_here :
    ∃ p turns, (processMachine ⟨fun w => w = .election, fun _ => false⟩).run (.start newNodeA)
        (mainSteps 4 ++ .election emptyElectionEnv :: mainSteps 2) = some (p, turns) ∧ p.main = .joinElection ∧
      p.node ≠ none ∧ p.main ≠ .ended ∧
      (p.main = .joinElection → ∀ gRunning, p.mainStep ⟨fun w => w = .election, fun _ => false⟩ gRunning = none) := by
  obtain ⟨⟨p, turns⟩, hrun, hmain⟩ : ∃ r, (processMachine ⟨fun w => w = .election, fun _ => false⟩).run (.start newNodeA)
      (mainSteps 4 ++ .election emptyElectionEnv :: mainSteps 2) = some r ∧ r.1.main = .joinElection := ⟨_, rfl, rfl⟩
  exact ⟨p, turns, hrun, hmain, failed_start_never_ends rfl rfl hrun⟩

end XDevice
