import XDevice.Raft.Majority
import XDevice.Raft.Index
/-!
# A node from its start to its end

What `main` of `node_main.c` does with a node it has created: `xdevice_raft_start_node`, the
loop that asks for the state, `xdevice_raft_destroy_node`; and what the node's two threads do
meanwhile. Touching the node after it is freed, joining a thread twice or one that never was,
and destroying a locked mutex are undefined.
-/
open Lib

namespace XDevice

/-! ## States -/

/-- A `pthread_t` of the node: zero, a thread that was created, or what a failed
`pthread_create` has left there. -/
inductive ThreadHandle where
  | null
  | thread
  | junk
  deriving DecidableEq, Repr

inductive Worker where
  | election
  | heartbeat
  deriving DecidableEq, Repr

/-- Where a thread of the node is: before the condition of its loop, before the lock, behind
it, in `usleep`. -/
inductive WorkerPhase where
  | absent
  | atLoop
  | atLock
  | inBody
  | asleep
  | exited
  | joined
  deriving DecidableEq, Repr

/-- Where `main` is; `undoRunning` and `undoJoin` are in `xdevice_raft_start_node` after the
second thread could not be created. -/
inductive MainPhase where
  | startNode
  | createElection
  | createHeartbeat
  | undoRunning
  | undoJoin
  | looping
  | atLock
  | readingState
  | stopThreads
  | joinElection
  | joinHeartbeat
  | destroyMutex
  | freeNode
  | ended
  deriving DecidableEq, Repr

inductive MutexState where
  | unlocked
  | locked (owner : Option Worker)
  | destroyed
  deriving DecidableEq, Repr

/-- `node` is `none` once it is freed. -/
structure NodeProcess where
  node : Option RaftNode
  running : Bool
  mutex : MutexState
  handle : Worker → ThreadHandle
  phase : Worker → WorkerPhase
  main : MainPhase

/-- How the calls of `pthread_create` come out; a failed one may change the handle. -/
structure CreateOutcome where
  created : Worker → Bool
  clobbers : Worker → Bool

/-- Whose turn it is, with what it meets. -/
inductive ProcessStep where
  | main (gRunning : Bool)
  | election (env : ElectionEnv)
  | heartbeat (env : HeartbeatEnv)

/-- Whether the turn was used, or the thread has to wait. -/
inductive Turn where
  | moved
  | blocked
  deriving DecidableEq, Repr

namespace NodeProcess

def setPhase (p : NodeProcess) (w : Worker) (phase : WorkerPhase) : NodeProcess :=
  { p with phase := fun v => if v = w then phase else p.phase v }

def setHandle (p : NodeProcess) (w : Worker) (handle : ThreadHandle) : NodeProcess :=
  { p with handle := fun v => if v = w then handle else p.handle v }

def goto (p : NodeProcess) (main : MainPhase) : NodeProcess := { p with main := main }

/-- `pthread_mutex_lock`, and where it leads. -/
def lock (p : NodeProcess) (owner : Option Worker) (next : NodeProcess → NodeProcess) : Option (NodeProcess × Turn) :=
  p.node.bind fun _ =>
    match p.mutex with
    | .unlocked => some (next { p with mutex := .locked owner }, .moved)
    | .locked _ => some (p, .blocked)
    | .destroyed => none

/-- `pthread_join` on a thread that was created, and where it leads. -/
def join (p : NodeProcess) (w : Worker) (next : MainPhase) : Option (NodeProcess × Turn) :=
  match p.phase w with
  | .absent | .joined => none
  | .exited => some ((p.setPhase w .joined).goto next, .moved)
  | _ => some (p, .blocked)

/-- `if (node->thread) pthread_join(...)`. -/
def joinHandle (p : NodeProcess) (w : Worker) (next : MainPhase) : Option (NodeProcess × Turn) :=
  p.node.bind fun _ =>
    match p.handle w with
    | .null => some (p.goto next, .moved)
    | .thread => p.join w next
    | .junk => none

/-- `pthread_create`. -/
def create (o : CreateOutcome) (p : NodeProcess) (w : Worker) (next failed : MainPhase) : Option (NodeProcess × Turn) :=
  p.node.map fun _ =>
    if o.created w then (((p.setHandle w .thread).setPhase w .atLoop).goto next, .moved)
    else ((if o.clobbers w then p.setHandle w .junk else p).goto failed, .moved)

/-- One part of a thread's loop. -/
def workerStep (p : NodeProcess) (w : Worker) (iteration : RaftNode → Option RaftNode) : Option (NodeProcess × Turn) :=
  match p.phase w with
  | .atLoop => p.node.map fun _ => (p.setPhase w (if p.running then .atLock else .exited), .moved)
  | .atLock => p.lock (some w) fun p => p.setPhase w .inBody
  | .inBody =>
    p.node.bind fun node =>
      (iteration node).map fun node => ({ p with node := some node, mutex := .unlocked }.setPhase w .asleep, .moved)
  | .asleep => some (p.setPhase w .atLoop, .moved)
  | .absent | .exited | .joined => some (p, .blocked)

def mainStep (o : CreateOutcome) (p : NodeProcess) (gRunning : Bool) : Option (NodeProcess × Turn) :=
  match p.main with
  | .startNode => p.node.map fun _ => ({ p with running := true }.goto .createElection, .moved)
  | .createElection => p.create o .election .createHeartbeat .stopThreads
  | .createHeartbeat => p.create o .heartbeat .looping .undoRunning
  | .undoRunning => p.node.map fun _ => ({ p with running := false }.goto .undoJoin, .moved)
  | .undoJoin => p.node.bind fun _ => p.join .election .stopThreads
  | .looping => some (p.goto (if gRunning then .atLock else .stopThreads), .moved)
  | .atLock => p.lock none fun p => p.goto .readingState
  | .readingState => p.node.map fun _ => ({ p with mutex := .unlocked }.goto .looping, .moved)
  | .stopThreads => p.node.map fun _ => ({ p with running := false }.goto .joinElection, .moved)
  | .joinElection => p.joinHandle .election .joinHeartbeat
  | .joinHeartbeat => p.joinHandle .heartbeat .destroyMutex
  | .destroyMutex =>
    p.node.bind fun _ =>
      match p.mutex with
      | .unlocked => some ({ p with mutex := .destroyed }.goto .freeNode, .moved)
      | _ => none
  | .freeNode => p.node.map fun _ => ({ p with node := none }.goto .ended, .moved)
  | .ended => some (p, .blocked)

end NodeProcess

/-- The steps of `main` and of the two threads, in any order. -/
def processMachine (o : CreateOutcome) : Machine NodeProcess ProcessStep Turn where
  step p
    | .main gRunning => p.mainStep o gRunning
    | .election env => p.workerStep .election fun node => some (electionIteration env node)
    | .heartbeat env => p.workerStep .heartbeat (heartbeatIteration env)

/-- A process that has just created its node and told it of its peers. -/
def NodeProcess.start (node : RaftNode) : NodeProcess where
  node := some node
  running := false
  mutex := .unlocked
  handle _ := .null
  phase _ := .absent
  main := .startNode

/-- Both threads are created, or the first is not and the handle stays zero. -/
def CreateOutcome.Clean (o : CreateOutcome) : Prop :=
  if o.created .election then o.created .heartbeat = true else o.clobbers .election = false

/-! ## Invariant -/

namespace MainPhase

/-- How far `main` has come. -/
def rank : MainPhase → Nat
  | .startNode => 0
  | .createElection => 1
  | .createHeartbeat => 2
  | .undoRunning | .undoJoin | .looping | .atLock | .readingState => 3
  | .stopThreads => 4
  | .joinElection => 5
  | .joinHeartbeat => 6
  | .destroyMutex => 7
  | .freeNode => 8
  | .ended => 9

end MainPhase

namespace Worker

/-- The ranks behind `pthread_create` and behind `pthread_join`. -/
def created : Worker → Nat
  | .election => 2
  | .heartbeat => 3

def joined : Worker → Nat
  | .election => 6
  | .heartbeat => 7

end Worker

namespace WorkerPhase

/-- The thread is there to be joined. -/
def live : WorkerPhase → Bool
  | .absent | .joined => false
  | _ => true

/-- The phase of a thread, if threads are made at all, when `main` has come so far. -/
def Fits (made : Bool) (w : Worker) (rank : Nat) (phase : WorkerPhase) : Prop :=
  if made = true ∧ w.created ≤ rank then (if rank < w.joined then phase.live = true else phase = .joined)
  else phase = .absent

end WorkerPhase

/-- Who is behind the lock holds the mutex, and nobody else does. -/
def MutexFits (mutex : MutexState) (phase : Worker → WorkerPhase) (main : MainPhase) : Prop :=
  match mutex with
  | .unlocked => main.rank < 8 ∧ main ≠ .readingState ∧ ∀ v, phase v ≠ .inBody
  | .locked (some w) => main.rank < 8 ∧ main ≠ .readingState ∧ ∀ v, phase v = .inBody ↔ v = w
  | .locked none => main = .readingState ∧ ∀ v, phase v ≠ .inBody
  | .destroyed => 8 ≤ main.rank

structure ProcessOk (o : CreateOutcome) (p : NodeProcess) : Prop where
  node : p.main ≠ .ended → ∃ node, p.node = some node ∧ NodeOk node ∧ IndexWindow node
  freed : p.main = .ended → p.node = none
  stopped : 5 ≤ p.main.rank → p.running = false
  path : p.main ≠ .undoRunning ∧ p.main ≠ .undoJoin
  made : o.created .election = false → p.main.rank < 2 ∨ 4 ≤ p.main.rank
  mutex : MutexFits p.mutex p.phase p.main
  fits : ∀ w, (p.phase w).Fits (o.created .election) w p.main.rank
  handle : ∀ w, p.handle w = if o.created .election = true ∧ w.created ≤ p.main.rank then .thread else .null

section
variable {o : CreateOutcome} {p p' : NodeProcess} {w : Worker} {turn : Turn}

theorem processOk_start {node : RaftNode} (hok : NodeOk node) (hs : node.state ≠ .leader) :
    ProcessOk o (.start node) where
  node _ := ⟨node, rfl, hok, .of_not_leader hs⟩
  freed := nofun
  stopped _ := rfl
  path := ⟨nofun, nofun⟩
  made _ := .inl (Nat.zero_lt_two)
  mutex := ⟨by simp [NodeProcess.start, MainPhase.rank], nofun, fun v => nofun⟩
  fits w := by cases w <;> simp [WorkerPhase.Fits, NodeProcess.start, MainPhase.rank, Worker.created]
  handle w := by cases w <;> simp [NodeProcess.start, MainPhase.rank, Worker.created]

theorem Worker.joined_le (w : Worker) : w.joined ≤ 7 := by cases w <;> decide

/-- A thread that is there was created, and `main` has not joined it. -/
theorem ProcessOk.live (h : ProcessOk o p) (hlive : (p.phase w).live = true) :
    o.created .election = true ∧ w.created ≤ p.main.rank ∧ p.main.rank < w.joined := by
  have hfits := h.fits w
  unfold WorkerPhase.Fits at hfits
  split at hfits
  · rename_i hmade
    split at hfits
    · rename_i hrank
      exact ⟨hmade.1, hmade.2, hrank⟩
    · rw [hfits] at hlive
      cases hlive
  · rw [hfits] at hlive
    cases hlive

/-- The node is there as long as a thread is. -/
theorem ProcessOk.live_node (h : ProcessOk o p) (hlive : (p.phase w).live = true) :
    ∃ node, p.node = some node ∧ NodeOk node ∧ IndexWindow node := by
  obtain ⟨-, -, hrank⟩ := h.live hlive
  refine h.node fun hended => ?_
  have hnine : p.main.rank = 9 := congrArg MainPhase.rank hended
  have := w.joined_le
  omega

/-- A thread goes on from one place to another. -/
theorem ProcessOk.setPhase (h : ProcessOk o p) (hlive : (p.phase w).live = true) {q : WorkerPhase} (hq : q.live = true)
    {mutex : MutexState} {node : Option RaftNode}
    (hnode : ∃ n, node = some n ∧ NodeOk n ∧ IndexWindow n)
    (hmutex : MutexFits mutex ({ p with node := node, mutex := mutex }.setPhase w q).phase p.main) :
    ProcessOk o ({ p with node := node, mutex := mutex }.setPhase w q) where
  node _ := hnode
  freed hended := by
    obtain ⟨-, -, hrank⟩ := h.live hlive
    have hnine : p.main.rank = 9 := congrArg MainPhase.rank hended
    have := w.joined_le
    omega
  stopped := h.stopped
  path := h.path
  made := h.made
  mutex := hmutex
  fits v := by
    obtain ⟨hmade, hcreated, hjoined⟩ := h.live hlive
    by_cases hv : v = w
    · subst hv
      simp only [NodeProcess.setPhase, if_true, WorkerPhase.Fits]
      rw [if_pos ⟨hmade, hcreated⟩, if_pos hjoined]
      exact hq
    · simp only [NodeProcess.setPhase, if_neg hv]
      exact h.fits v
  handle := h.handle

theorem MutexFits.congr {mutex : MutexState} {phase phase' : Worker → WorkerPhase} {main : MainPhase}
    (h : MutexFits mutex phase main) (hsame : ∀ v, phase' v = .inBody ↔ phase v = .inBody) :
    MutexFits mutex phase' main := by
  unfold MutexFits at h ⊢
  simp only [ne_eq, hsame]
  exact h

theorem setPhase_self (p : NodeProcess) (w : Worker) (q : WorkerPhase) : (p.setPhase w q).phase w = q := if_pos rfl

theorem setHandle_self (p : NodeProcess) (w : Worker) (q : ThreadHandle) : (p.setHandle w q).handle w = q := if_pos rfl

theorem setHandle_other (p : NodeProcess) {v w : Worker} (q : ThreadHandle) (hv : v ≠ w) :
    (p.setHandle w q).handle v = p.handle v := if_neg hv

theorem setPhase_other (p : NodeProcess) {v w : Worker} (q : WorkerPhase) (hv : v ≠ w) :
    (p.setPhase w q).phase v = p.phase v := if_neg hv

/-- While a thread runs the mutex is there. -/
theorem ProcessOk.mutex_live (h : ProcessOk o p) (hlive : (p.phase w).live = true) : p.mutex ≠ .destroyed := by
  intro hm
  have hmutex := h.mutex
  have hrank := (h.live hlive).2.2
  have hseven := w.joined_le
  rw [hm] at hmutex
  simp only [MutexFits] at hmutex
  omega

/-- A thread of the node is never undefined. -/
theorem ProcessOk.workerStep (h : ProcessOk o p) {iteration : RaftNode → Option RaftNode}
    (hit : ∀ node, NodeOk node → IndexWindow node →
      ∃ node', iteration node = some node' ∧ NodeOk node' ∧ IndexWindow node') :
    ∃ p' turn, p.workerStep w iteration = some (p', turn) ∧ ProcessOk o p' := by
  have houtside : ∀ q, p.phase w ≠ .inBody → q ≠ WorkerPhase.inBody → MutexFits p.mutex (p.setPhase w q).phase p.main := by
    intro q hp hq
    refine h.mutex.congr fun v => ?_
    by_cases hv : v = w
    · subst hv
      rw [setPhase_self]
      exact iff_of_false hq hp
    · rw [setPhase_other p q hv]
  unfold NodeProcess.workerStep
  cases hphase : p.phase w with
  | absent => exact ⟨p, .blocked, rfl, h⟩
  | exited => exact ⟨p, .blocked, rfl, h⟩
  | joined => exact ⟨p, .blocked, rfl, h⟩
  | atLoop =>
    have hlive : (p.phase w).live = true := by rw [hphase]; rfl
    obtain ⟨node, hnode, hok⟩ := h.live_node hlive
    refine ⟨p.setPhase w (if p.running then .atLock else .exited), .moved, by rw [hnode]; rfl, ?_⟩
    refine h.setPhase hlive ?_ ⟨node, hnode, hok⟩ (houtside _ (by simp [hphase]) ?_)
    · split <;> rfl
    · split <;> simp
  | asleep =>
    have hlive : (p.phase w).live = true := by rw [hphase]; rfl
    exact ⟨p.setPhase w .atLoop, .moved, rfl,
      h.setPhase hlive rfl (h.live_node hlive) (houtside _ (by simp [hphase]) (by simp))⟩
  | atLock =>
    have hlive : (p.phase w).live = true := by rw [hphase]; rfl
    obtain ⟨node, hnode, hok⟩ := h.live_node hlive
    have hmutex := h.mutex
    unfold NodeProcess.lock
    dsimp only
    rw [hnode, Option.bind_some]
    cases hm : p.mutex with
    | destroyed => exact absurd hm (h.mutex_live hlive)
    | locked owner => exact ⟨p, .blocked, rfl, h⟩
    | unlocked =>
      rw [hm] at hmutex
      obtain ⟨hrank, hreading, hnobody⟩ := hmutex
      refine ⟨_, .moved, rfl, ?_⟩
      rw [← hnode]
      refine h.setPhase hlive rfl ⟨node, hnode, hok⟩ ⟨hrank, hreading, fun v => ?_⟩
      by_cases hv : v = w
      · subst hv
        rw [setPhase_self]
        simp
      · rw [setPhase_other _ _ hv]
        exact iff_of_false (hnobody v) hv
  | inBody =>
    have hlive : (p.phase w).live = true := by rw [hphase]; rfl
    obtain ⟨node, hnode, hok, hwin⟩ := h.live_node hlive
    obtain ⟨node', hrun, hok', hwin'⟩ := hit node hok hwin
    dsimp only
    rw [hnode, Option.bind_some, hrun]
    refine ⟨_, .moved, rfl, h.setPhase hlive rfl ⟨node', rfl, hok', hwin'⟩ ?_⟩
    have hmutex := h.mutex
    -- the thread itself holds the mutex
    cases hm : p.mutex with
    | unlocked =>
      rw [hm] at hmutex
      exact absurd hphase (hmutex.2.2 w)
    | destroyed => exact absurd hm (h.mutex_live hlive)
    | locked owner =>
      rw [hm] at hmutex
      cases owner with
      | none => exact absurd hphase (hmutex.2 w)
      | some owner =>
        obtain ⟨hrank, hreading, howner⟩ := hmutex
        obtain rfl := (howner w).1 hphase
        refine ⟨hrank, hreading, fun v => ?_⟩
        by_cases hv : v = w
        · subst hv
          rw [setPhase_self]
          simp
        · rw [setPhase_other _ _ hv]
          exact fun hbody => hv ((howner v).1 hbody)

/-! ### The steps of main -/

theorem MutexFits.goto {mutex : MutexState} {phase : Worker → WorkerPhase} {main next : MainPhase}
    (h : MutexFits mutex phase main) (hmain : main ≠ .readingState) (hnext : next ≠ .readingState)
    (hrank : next.rank < 8 ↔ main.rank < 8) : MutexFits mutex phase next := by
  unfold MutexFits at h ⊢
  cases mutex with
  | unlocked => exact ⟨hrank.2 h.1, hnext, h.2.2⟩
  | destroyed => exact Nat.not_lt.1 fun hlt => absurd (hrank.1 hlt) (Nat.not_lt.2 h)
  | locked owner =>
    cases owner with
    | none => exact absurd h.1 hmain
    | some w => exact ⟨hrank.2 h.1, hnext, h.2.2⟩

/-- `main` goes on where no thread is made or joined, or none was made. -/
theorem ProcessOk.move (h : ProcessOk o p) (running : Bool) (mutex : MutexState) {next : MainPhase}
    {node : Option RaftNode} (hnode : next ≠ .ended → ∃ n, node = some n ∧ NodeOk n ∧ IndexWindow n)
    (hfreed : next = .ended → node = none)
    (hstop : 5 ≤ next.rank → running = false) (hpath : next ≠ .undoRunning ∧ next ≠ .undoJoin)
    (hmade : o.created .election = false → next.rank < 2 ∨ 4 ≤ next.rank)
    (hrank : o.created .election = true → ∀ w : Worker, (w.created ≤ next.rank ↔ w.created ≤ p.main.rank) ∧
      (next.rank < w.joined ↔ p.main.rank < w.joined))
    (hmutex : MutexFits mutex p.phase next) :
    ProcessOk o ({ p with node := node, running := running, mutex := mutex }.goto next) where
  node := hnode
  freed := hfreed
  stopped := hstop
  path := hpath
  made := hmade
  mutex := hmutex
  fits w := by
    have hfits := h.fits w
    unfold WorkerPhase.Fits at hfits ⊢
    by_cases hm : o.created .election = true
    · obtain ⟨hc, hj⟩ := hrank hm w
      simp only [NodeProcess.goto, hc, hj]
      exact hfits
    · rw [if_neg fun hc => hm hc.1] at hfits ⊢
      exact hfits
  handle w := by
    have hhandle := h.handle w
    by_cases hm : o.created .election = true
    · simp only [NodeProcess.goto, (hrank hm w).1]
      exact hhandle
    · rw [if_neg fun hc => hm hc.1] at hhandle ⊢
      exact hhandle

/-- The node stays. -/
theorem ProcessOk.advance (h : ProcessOk o p) (running : Bool) (mutex : MutexState) {next : MainPhase}
    (hended : p.main ≠ .ended ∧ next ≠ .ended) (hstop : 5 ≤ next.rank → running = false)
    (hpath : next ≠ .undoRunning ∧ next ≠ .undoJoin)
    (hmade : o.created .election = false → next.rank < 2 ∨ 4 ≤ next.rank)
    (hrank : o.created .election = true → ∀ w : Worker, (w.created ≤ next.rank ↔ w.created ≤ p.main.rank) ∧
      (next.rank < w.joined ↔ p.main.rank < w.joined))
    (hmutex : MutexFits mutex p.phase next) :
    ProcessOk o ({ p with running := running, mutex := mutex }.goto next) :=
  h.move running mutex (fun _ => h.node hended.1) (fun hnext => absurd hnext hended.2) hstop hpath hmade hrank hmutex

/-- `main` joins a thread that it has made and not yet joined. -/
theorem ProcessOk.joinHandle (h : ProcessOk o p) {next : MainPhase} (hrank : p.main.rank + 1 = w.joined)
    (hnext : next.rank = w.joined) (hreading : p.main ≠ .readingState) :
    ∃ p' turn, p.joinHandle w next = some (p', turn) ∧ ProcessOk o p' := by
  have hseven := w.joined_le
  have hended : ∀ main : MainPhase, main.rank ≤ 7 → main ≠ .ended := by
    rintro _ hrank rfl
    simp [MainPhase.rank] at hrank
  obtain ⟨node, hnode, hok⟩ := h.node (hended _ (by omega))
  have hstopped : p.running = false := h.stopped (by have : 6 ≤ w.joined := by { cases w <;> decide }; omega)
  have hnextreading : next ≠ .readingState := by
    rintro rfl
    cases w <;> simp [MainPhase.rank, Worker.joined] at hnext
  have hpath : next ≠ .undoRunning ∧ next ≠ .undoJoin := by
    refine ⟨?_, ?_⟩ <;> rintro rfl <;> cases w <;> simp [MainPhase.rank, Worker.joined] at hnext
  have hcreated : ∀ v : Worker, v.created ≤ next.rank ∧ v.created ≤ p.main.rank := by
    intro v
    cases v <;> cases w <;> simp only [Worker.joined, Worker.created] at hnext hrank ⊢ <;> omega
  have hmutex : MutexFits p.mutex p.phase next :=
    h.mutex.goto hreading hnextreading ⟨fun _ => by omega, fun _ => by omega⟩
  have hhandle := h.handle w
  unfold NodeProcess.joinHandle
  rw [hnode, Option.bind_some, hhandle]
  by_cases hm : o.created .election = true
  · rw [if_pos ⟨hm, (hcreated w).2⟩]
    have hfits := h.fits w
    unfold WorkerPhase.Fits at hfits
    rw [if_pos ⟨hm, (hcreated w).2⟩, if_pos (by omega)] at hfits
    dsimp only [NodeProcess.join]
    cases hphase : p.phase w with
    | absent =>
      rw [hphase] at hfits
      cases hfits
    | joined =>
      rw [hphase] at hfits
      cases hfits
    | atLoop => exact ⟨p, .blocked, rfl, h⟩
    | atLock => exact ⟨p, .blocked, rfl, h⟩
    | inBody => exact ⟨p, .blocked, rfl, h⟩
    | asleep => exact ⟨p, .blocked, rfl, h⟩
    | exited =>
      refine ⟨_, .moved, rfl, ⟨fun _ => ⟨node, hnode, hok⟩, fun hno => ?_, fun _ => hstopped, hpath,
        fun hno => ?_, ?_, fun v => ?_, fun v => ?_⟩⟩
      · exact absurd hno (hended next (by omega))
      · rw [hm] at hno
        cases hno
      · -- the thread that is joined is not behind the lock
        refine hmutex.congr fun v => ?_
        by_cases hv : v = w
        · subst hv
          refine (iff_of_eq (congrArg (· = WorkerPhase.inBody) (setPhase_self p v .joined))).trans ?_
          rw [hphase]
          simp
        · exact iff_of_eq (congrArg (· = WorkerPhase.inBody) (setPhase_other p _ hv))
      · by_cases hv : v = w
        · subst hv
          have hself : ((p.setPhase v .joined).goto next).phase v = .joined := setPhase_self p v .joined
          have hmain : ((p.setPhase v .joined).goto next).main = next := rfl
          rw [hself, hmain, WorkerPhase.Fits, if_pos ⟨hm, (hcreated v).1⟩, if_neg (by omega)]
        · have hfits := h.fits v
          have hjoined : next.rank < v.joined ↔ p.main.rank < v.joined := by
            cases v <;> cases w <;> first | exact absurd rfl hv | (simp only [Worker.joined] at hnext hrank ⊢; omega)
          simp only [NodeProcess.goto, setPhase_other p _ hv, WorkerPhase.Fits, hjoined] at hfits ⊢
          rw [if_pos ⟨hm, (hcreated v).2⟩] at hfits
          rw [if_pos ⟨hm, (hcreated v).1⟩]
          exact hfits
      · have hhandle := h.handle v
        rw [if_pos ⟨hm, (hcreated v).2⟩] at hhandle
        rw [if_pos ⟨hm, (hcreated v).1⟩]
        exact hhandle
  · rw [if_neg fun hc => hm hc.1]
    refine ⟨_, .moved, rfl, h.advance p.running p.mutex ⟨hended _ (by omega), hended _ (by omega)⟩ (fun _ => hstopped)
      hpath (fun _ => .inr ?_) (fun hc => absurd hc hm) hmutex⟩
    cases w <;> simp only [Worker.joined] at hnext <;> omega

/-- `main` makes a thread. -/
theorem ProcessOk.create (h : ProcessOk o p) (hw : o.created w = true) (hm : o.created .election = true)
    {next failed : MainPhase} (hrank : p.main.rank + 1 = w.created) (hnext : next.rank = w.created)
    (hmain : p.main ≠ .readingState ∧ next ≠ .readingState) (hpath : next ≠ .undoRunning ∧ next ≠ .undoJoin) :
    ∃ p' turn, p.create o w next failed = some (p', turn) ∧ ProcessOk o p' := by
  have hlow : w.created ≤ 3 := by cases w <;> decide
  have hjoined : ∀ v : Worker, next.rank < v.joined ∧ p.main.rank < v.joined := by
    intro v
    have : 6 ≤ v.joined := by cases v <;> decide
    omega
  obtain ⟨node, hnode, hok⟩ := h.node fun hended => by
    rw [hended] at hrank
    simp only [MainPhase.rank] at hrank
    omega
  have hother : ∀ v, v ≠ w → (v.created ≤ next.rank ↔ v.created ≤ p.main.rank) := by
    intro v hv
    cases v <;> cases w <;> first | exact absurd rfl hv | (simp only [Worker.created] at hnext hrank ⊢; omega)
  have habsent : p.phase w = .absent := by
    have hfits := h.fits w
    unfold WorkerPhase.Fits at hfits
    rwa [if_neg (by omega)] at hfits
  have hmutex : MutexFits p.mutex p.phase next := h.mutex.goto hmain.1 hmain.2 ⟨fun _ => by omega, fun _ => by omega⟩
  unfold NodeProcess.create
  rw [hnode, Option.map_some, if_pos hw]
  refine ⟨_, .moved, rfl, ⟨fun _ => ⟨node, hnode, hok⟩, fun hno => ?_, fun hfive => ?_, hpath, fun hno => ?_, ?_,
    fun v => ?_, fun v => ?_⟩⟩
  · have hnine : next.rank = 9 := congrArg MainPhase.rank hno
    omega
  · have hlate : 5 ≤ next.rank := hfive
    omega
  · rw [hm] at hno
    cases hno
  · -- the new thread is before the lock
    refine hmutex.congr fun v => ?_
    by_cases hv : v = w
    · subst hv
      have hself : (((p.setHandle v .thread).setPhase v .atLoop).goto next).phase v = .atLoop := setPhase_self _ v _
      rw [hself, habsent]
      simp
    · exact iff_of_eq (congrArg (· = WorkerPhase.inBody) (setPhase_other (p.setHandle w .thread) _ hv))
  · have hmain : (((p.setHandle w .thread).setPhase w .atLoop).goto next).main = next := rfl
    unfold WorkerPhase.Fits
    rw [hmain]
    by_cases hv : v = w
    · subst hv
      have hself : (((p.setHandle v .thread).setPhase v .atLoop).goto next).phase v = .atLoop := setPhase_self _ v _
      rw [hself, if_pos ⟨hm, by omega⟩, if_pos (hjoined v).1]
      rfl
    · have hkeep : (((p.setHandle w .thread).setPhase w .atLoop).goto next).phase v = p.phase v :=
        setPhase_other (p.setHandle w .thread) _ hv
      have hfits := h.fits v
      unfold WorkerPhase.Fits at hfits
      rw [if_pos (hjoined v).2] at hfits
      rw [hkeep, if_pos (hjoined v).1]
      simp only [hother v hv]
      exact hfits
  · have hmain : (((p.setHandle w .thread).setPhase w .atLoop).goto next).main = next := rfl
    rw [hmain]
    by_cases hv : v = w
    · subst hv
      rw [if_pos ⟨hm, by omega⟩]
      exact setHandle_self p v .thread
    · simp only [hother v hv]
      rw [← h.handle v]
      exact setHandle_other p .thread hv

/-- Between the calls of `pthread_create` and the end, `main` has made its threads. -/
theorem ProcessOk.made_of_rank (h : ProcessOk o p) (hrank : p.main.rank = 2 ∨ p.main.rank = 3) :
    o.created .election = true := by
  by_contra hno
  have := h.made (by simpa using hno)
  omega

/-- Behind the second join nobody is behind the lock. -/
theorem ProcessOk.unlocked (h : ProcessOk o p) (hmain : p.main = .destroyMutex) : p.mutex = .unlocked := by
  have hmutex := h.mutex
  cases hm : p.mutex with
  | unlocked => rfl
  | destroyed =>
    rw [hm, hmain] at hmutex
    simp [MutexFits, MainPhase.rank] at hmutex
  | locked owner =>
    rw [hm, hmain] at hmutex
    cases owner with
    | none => cases hmutex.1
    | some w =>
      have hbody := (hmutex.2.2 w).2 rfl
      have hjoined := (h.live (w := w) (by rw [hbody]; rfl)).2.2
      have hseven := w.joined_le
      rw [hmain] at hjoined
      simp only [MainPhase.rank] at hjoined
      omega

/-- `main` goes round its loop, or leaves it. -/
theorem ProcessOk.poll (h : ProcessOk o p) (mutex : MutexState) {next : MainPhase} (hthree : p.main.rank = 3)
    (hnext : next = .looping ∨ next = .atLock ∨ next = .readingState ∨ next = .stopThreads)
    (hmutex : MutexFits mutex p.phase next) : ProcessOk o ({ p with mutex := mutex }.goto next) := by
  have hm := h.made_of_rank (.inr hthree)
  have hrank : next.rank = 3 ∨ next.rank = 4 := by
    rcases hnext with rfl | rfl | rfl | rfl <;> decide
  have hended : p.main ≠ .ended ∧ next ≠ .ended := by
    refine ⟨fun hended => ?_, fun hended => ?_⟩
    · rw [hended] at hthree
      cases hthree
    · rw [hended] at hrank
      simp [MainPhase.rank] at hrank
  have hpath : next ≠ .undoRunning ∧ next ≠ .undoJoin := by
    rcases hnext with rfl | rfl | rfl | rfl <;> exact ⟨nofun, nofun⟩
  refine h.advance p.running mutex hended (fun hfive => by omega) hpath (fun hno => ?_) (fun _ w => ?_) hmutex
  · rw [hm] at hno
    cases hno
  · have : w.created ≤ 3 ∧ 6 ≤ w.joined := by cases w <;> decide
    omega

/-- Nothing that `main` does is undefined, if it could create its threads. -/
theorem ProcessOk.mainStep (hclean : o.Clean) (h : ProcessOk o p) (gRunning : Bool) :
    ∃ p' turn, p.mainStep o gRunning = some (p', turn) ∧ ProcessOk o p' := by
  have hrank : ∀ w : Worker, 2 ≤ w.created ∧ w.created ≤ 3 ∧ 6 ≤ w.joined := fun w => by cases w <;> decide
  have hmutex := h.mutex
  -- the phases in which nobody is behind the lock on account of `main`
  have hgoto : ∀ next : MainPhase, p.main ≠ .readingState → next ≠ .readingState → (next.rank < 8 ↔ p.main.rank < 8) →
      MutexFits p.mutex p.phase next := fun next hmain hnext hrank => hmutex.goto hmain hnext hrank
  unfold NodeProcess.mainStep
  cases hmain : p.main with
  | undoRunning => exact absurd hmain h.path.1
  | undoJoin => exact absurd hmain h.path.2
  | ended => exact ⟨p, .blocked, rfl, h⟩
  | startNode =>
    obtain ⟨node, hnode, -⟩ := h.node (by simp [hmain])
    dsimp only
    rw [hnode]
    refine ⟨_, .moved, rfl, ?_⟩
    rw [← hnode]
    refine h.advance true p.mutex ⟨by simp [hmain], nofun⟩ (fun hfive => absurd hfive (by decide)) ⟨nofun, nofun⟩
      (fun _ => .inl Nat.one_lt_two) (fun _ w => ?_)
      (hgoto .createElection (by simp [hmain]) nofun (by simp [hmain, MainPhase.rank]))
    have := hrank w
    simp only [hmain, MainPhase.rank]
    omega
  | createElection =>
    obtain ⟨node, hnode, -⟩ := h.node (by simp [hmain])
    cases hm : o.created .election with
    | true => exact h.create hm hm (by rw [hmain]; rfl) rfl ⟨by simp [hmain], nofun⟩ ⟨nofun, nofun⟩
    | false =>
      have hclobbers : o.clobbers .election = false := by simpa [CreateOutcome.Clean, hm] using hclean
      unfold NodeProcess.create
      dsimp only
      rw [hnode, Option.map_some, if_neg (by simp [hm]), hclobbers, if_neg Bool.false_ne_true]
      refine ⟨_, .moved, rfl, ?_⟩
      refine h.advance p.running p.mutex ⟨by simp [hmain], nofun⟩ (fun hfive => absurd hfive (by decide)) ⟨nofun, nofun⟩
        (fun _ => .inr (Nat.le_refl _)) (fun hc => ?_)
        (hgoto .stopThreads (by simp [hmain]) nofun (by simp [hmain, MainPhase.rank]))
      rw [hm] at hc
      cases hc
  | createHeartbeat =>
    have hm := h.made_of_rank (.inl (by rw [hmain]; rfl))
    have hw : o.created .heartbeat = true := by simpa [CreateOutcome.Clean, hm] using hclean
    exact h.create hw hm (by rw [hmain]; rfl) rfl ⟨by simp [hmain], nofun⟩ ⟨nofun, nofun⟩
  | looping =>
    have hthree : p.main.rank = 3 := by rw [hmain]; rfl
    cases gRunning with
    | true =>
      exact ⟨_, .moved, rfl, h.poll p.mutex hthree (.inr (.inl rfl))
        (hgoto .atLock (by simp [hmain]) nofun (by simp [hmain, MainPhase.rank]))⟩
    | false =>
      exact ⟨_, .moved, rfl, h.poll p.mutex hthree (.inr (.inr (.inr rfl)))
        (hgoto .stopThreads (by simp [hmain]) nofun (by simp [hmain, MainPhase.rank]))⟩
  | atLock =>
    have hthree : p.main.rank = 3 := by rw [hmain]; rfl
    obtain ⟨node, hnode, -⟩ := h.node (by simp [hmain])
    unfold NodeProcess.lock
    dsimp only
    rw [hnode, Option.bind_some]
    cases hstate : p.mutex with
    | locked owner => exact ⟨p, .blocked, rfl, h⟩
    | destroyed =>
      rw [hstate, hmain] at hmutex
      simp [MutexFits, MainPhase.rank] at hmutex
    | unlocked =>
      rw [hstate] at hmutex
      refine ⟨_, .moved, rfl, ?_⟩
      rw [← hnode]
      exact h.poll _ hthree (.inr (.inr (.inl rfl))) ⟨rfl, hmutex.2.2⟩
  | readingState =>
    have hthree : p.main.rank = 3 := by rw [hmain]; rfl
    obtain ⟨node, hnode, -⟩ := h.node (by simp [hmain])
    have hnobody : ∀ v, p.phase v ≠ .inBody := by
      unfold MutexFits at hmutex
      split at hmutex
      · exact hmutex.2.2
      · exact absurd hmain hmutex.2.1
      · exact hmutex.2
      · simp [hmain, MainPhase.rank] at hmutex
    dsimp only
    rw [hnode]
    refine ⟨_, .moved, rfl, ?_⟩
    rw [← hnode]
    exact h.poll _ hthree (.inl rfl) ⟨by decide, nofun, hnobody⟩
  | stopThreads =>
    obtain ⟨node, hnode, -⟩ := h.node (by simp [hmain])
    dsimp only
    rw [hnode]
    refine ⟨_, .moved, rfl, ?_⟩
    rw [← hnode]
    refine h.advance false p.mutex ⟨by simp [hmain], nofun⟩ (fun _ => rfl) ⟨nofun, nofun⟩ (fun _ => .inr (by decide))
      (fun _ w => ?_) (hgoto .joinElection (by simp [hmain]) nofun (by simp [hmain, MainPhase.rank]))
    have := hrank w
    simp only [hmain, MainPhase.rank]
    omega
  | joinElection => exact h.joinHandle (by rw [hmain]; rfl) rfl (by simp [hmain])
  | joinHeartbeat => exact h.joinHandle (by rw [hmain]; rfl) rfl (by simp [hmain])
  | destroyMutex =>
    have hstopped := h.stopped (by rw [hmain]; decide)
    obtain ⟨node, hnode, -⟩ := h.node (by simp [hmain])
    dsimp only
    rw [hnode, Option.bind_some, h.unlocked hmain]
    refine ⟨_, .moved, rfl, ?_⟩
    rw [← hnode]
    refine h.advance p.running _ ⟨by simp [hmain], nofun⟩ (fun _ => hstopped) ⟨nofun, nofun⟩ (fun _ => .inr (by decide))
      (fun _ w => ?_) (Nat.le_refl 8)
    have := hrank w
    have := w.joined_le
    simp only [hmain, MainPhase.rank]
    omega
  | freeNode =>
    have hstopped := h.stopped (by rw [hmain]; decide)
    obtain ⟨node, hnode, -⟩ := h.node (by simp [hmain])
    dsimp only
    rw [hnode]
    refine ⟨_, .moved, rfl, ?_⟩
    refine h.move p.running p.mutex (fun hne => absurd rfl hne) (fun _ => rfl) (fun _ => hstopped) ⟨nofun, nofun⟩
      (fun _ => .inr (by decide)) (fun _ w => ?_)
      (hgoto .ended (by simp [hmain]) nofun (by simp [hmain, MainPhase.rank]))
    have := hrank w
    have := w.joined_le
    simp only [hmain, MainPhase.rank]
    omega

theorem ProcessOk.step (hclean : o.Clean) (h : ProcessOk o p) (a : ProcessStep) :
    ∃ p' turn, (processMachine o).step p a = some (p', turn) ∧ ProcessOk o p' := by
  cases a with
  | main gRunning => exact h.mainStep hclean gRunning
  | election env => exact h.workerStep fun node hok hwin => ⟨_, rfl, electionIteration_ok hok hwin env⟩
  | heartbeat env => exact h.workerStep fun node hok hwin => heartbeatIteration_ok hok hwin env

/-! ## Undefined behaviour -/

/-- Nothing is answered. -/
def emptyElectionEnv : ElectionEnv := ⟨0, ⟨0, 0⟩, fun _ _ => none, fun _ => ⟨0, 0⟩⟩

/-- `main` and no other thread, so many times. -/
def mainSteps (n : Nat) : List ProcessStep := List.replicate n (.main false)

/-- The second thread could not be created: `main` lets the first run out, and joins it twice. -/
theorem join_twice (node : RaftNode) (he : o.created .election = true) (hh : o.created .heartbeat = false) :
    (processMachine o).run (.start node) (mainSteps 4 ++ .election emptyElectionEnv :: mainSteps 3) = none := by
  cases hc : o.clobbers .heartbeat <;>
    simp [mainSteps, Machine.run, processMachine, NodeProcess.start, NodeProcess.mainStep, NodeProcess.create,
      NodeProcess.goto, NodeProcess.setPhase, NodeProcess.setHandle, NodeProcess.workerStep, NodeProcess.join,
      NodeProcess.joinHandle, he, hh, hc]

/-- The first thread could not be created, and `main` joins what was left in the handle. -/
theorem join_junk (node : RaftNode) (he : o.created .election = false) (hc : o.clobbers .election = true) :
    (processMachine o).run (.start node) (mainSteps 4) = none := by
  simp [mainSteps, Machine.run, processMachine, NodeProcess.start, NodeProcess.mainStep, NodeProcess.create,
    NodeProcess.goto, NodeProcess.setHandle, NodeProcess.joinHandle, he, hc]

end

/-- A node that is new, and knows its peers. -/
theorem nodeOk_addAll {avail : Bool} {clock : Clock} {nodeId : CString} {node : RaftNode}
    (hnew : xdeviceRaftCreateNode avail clock nodeId = some node) (ids : List CString) :
    NodeOk (addAll node ids) ∧ (addAll node ids).state ≠ .leader := by
  obtain ⟨hok, hs⟩ := nodeOk_create hnew
  refine ⟨?_, (addAll_frame node ids).1 ▸ hs⟩
  clear hnew hs
  unfold addAll
  induction ids generalizing node with
  | nil => exact hok
  | cons id ids ih => exact ih (addNode_ok hok id)

/-- Whatever the two threads and `main` do and in whatever order, nothing is undefined, just when
both threads could be created, or the first could not and its handle stayed zero. -/
theorem process_defined_iff (o : CreateOutcome) {avail : Bool} {clock : Clock} {nodeId : CString} {node : RaftNode}
    (hnew : xdeviceRaftCreateNode avail clock nodeId = some node) (ids : List CString) :
    (∀ steps, ∃ p turns, (processMachine o).run (.start (addAll node ids)) steps = some (p, turns)) ↔ o.Clean := by
  obtain ⟨hok, hs⟩ := nodeOk_addAll hnew ids
  constructor
  · intro hall
    by_contra hclean
    cases he : o.created .election with
    | true =>
      have hh : o.created .heartbeat = false := by simpa [CreateOutcome.Clean, he] using hclean
      obtain ⟨p, turns, hrun⟩ := hall (mainSteps 4 ++ .election emptyElectionEnv :: mainSteps 3)
      rw [join_twice _ he hh] at hrun
      cases hrun
    | false =>
      have hc : o.clobbers .election = true := by simpa [CreateOutcome.Clean, he] using hclean
      obtain ⟨p, turns, hrun⟩ := hall (mainSteps 4)
      rw [join_junk _ he hc] at hrun
      cases hrun
  · intro hclean steps
    have hall : (processMachine o).Along (fun _ _ => True) (.start (addAll node ids)) steps :=
      Machine.along_of_forall (fun _ _ => trivial) _
    obtain ⟨p, turns, hrun, -⟩ := Machine.run_of_along (M := processMachine o) (I := ProcessOk o) (C := fun _ _ => True)
      (fun p a hp _ => hp.step hclean a) (processOk_start hok hs) hall
    exact ⟨p, turns, hrun⟩

/-- In a cluster of three, all is well when both threads are created, and not when only the first is. -/
theorem process_defined_iff_three :
    (∀ steps, ∃ p turns, (processMachine ⟨fun _ => true, fun _ => false⟩).run
      (.start (addAll newNodeA [cstr "A", cstr "B", cstr "C"])) steps = some (p, turns)) ∧
    ¬ ∀ steps, ∃ p turns, (processMachine ⟨fun w => w = .election, fun _ => false⟩).run
      (.start (addAll newNodeA [cstr "A", cstr "B", cstr "C"])) steps = some (p, turns) := by
  have hiff := fun o => process_defined_iff o newNodeA_created [cstr "A", cstr "B", cstr "C"]
  constructor
  · exact (hiff _).2 (by simp [CreateOutcome.Clean])
  · intro hall
    exact absurd ((hiff _).1 hall) (by simp [CreateOutcome.Clean])

end XDevice
