import XDevice.Storage.Registry
import XDevice.Storage.Failover
/-!
# Where the manager sends a call

`select_backend` scans the slots three times: for the primary, for the fallback, for any
backend that is healthy. The switch for the failover guards the second scan only.
-/
open Lib

namespace XDevice

variable {σ : Type}

/-! ## Calls and whom they reach -/

/-- A call through the manager. -/
inductive ManagerCall where
  | read (path : CString) (offset size : Nat)
  | write (path : CString) (offset : Nat) (data : Bytes)
  | sync (path : CString)
  deriving DecidableEq, Repr

namespace ManagerCall

def run (c : ManagerCall) (env : CallEnv) (w : StorageWorld σ) : Option (StorageWorld σ × StorageReply) :=
  match c with
  | .read p off n => storageManagerRead w env p off n
  | .write p off d => storageManagerWrite w env p off d
  | .sync p => storageManagerSync w env p

/-- The manager asks for at least one byte. -/
def valid : ManagerCall → Bool
  | .read _ _ n => n ≠ 0
  | .write _ _ d => d.length ≠ 0
  | .sync _ => true

/-- The call on one backend; without `fsync` there is nothing to do in a sync. -/
def on (c : ManagerCall) (env : CallEnv) (b : StorageInterface σ) : Option (σ × StorageReply) :=
  match c with
  | .read p off n => b.readSync env b.privateData p off n
  | .write p off d => b.writeSync env b.privateData p off d
  | .sync p =>
    match b.fsync with
    | none => some (b.privateData, .ofCode .ok)
    | some f => f env b.privateData p

/-- The backend has the function for it. -/
def reaches (c : ManagerCall) (b : StorageInterface σ) : Bool :=
  match c with
  | .sync _ => b.fsync.isSome
  | _ => true

end ManagerCall

/-- The backend with a count of the calls of its functions for data beside its private data. -/
def metered (b : StorageInterface σ) : StorageInterface (σ × Nat) where
  type := b.type
  privateData := (b.privateData, 0)
  cleanup := b.cleanup.map fun f data => (((f data.1).1, data.2), (f data.1).2)
  healthCheck := b.healthCheck.map fun check data => check data.1
  readSync env data path offset size :=
    (b.readSync env data.1 path offset size).map fun (priv, reply) => ((priv, data.2 + 1), reply)
  writeSync env data path offset bytes :=
    (b.writeSync env data.1 path offset bytes).map fun (priv, reply) => ((priv, data.2 + 1), reply)
  fsync := b.fsync.map fun f env data path => (f env data.1 path).map fun (priv, reply) => ((priv, data.2 + 1), reply)

namespace StorageWorld

/-- The slots of `w` under any policy, with any backends behind the pointers. -/
def routed (w : StorageWorld σ) (policy : RoutingPolicy) (heap : Nat → StorageInterface σ) : StorageWorld (σ × Nat) :=
  ⟨{ w.manager with routingPolicy := policy }, fun ptr => metered (heap ptr)⟩

/-- How often one of the object's functions for data was called. -/
def ioCalls (w : StorageWorld (σ × Nat)) (ptr : Nat) : Nat := (w.heap ptr).privateData.2

/-- The backend is registered and healthy. -/
def Usable (w : StorageWorld σ) (ptr : Nat) : Prop := ptr ∈ w.registered ∧ (w.heap ptr).healthy = true

/-- No usable backend is of the type. -/
def NoneUsable (w : StorageWorld σ) (type : StorageBackendType) : Prop :=
  ∀ ptr, w.Usable ptr → (w.heap ptr).type ≠ type

/-- The first usable backend in the order of the slots. -/
def firstUsable (w : StorageWorld σ) : Option Nat := w.registered.find? fun ptr => (w.heap ptr).healthy

end StorageWorld

/-- The backend that the policy wants a call to go to. -/
structure Routes (w : StorageWorld σ) (used : Option Nat) : Prop where
  primary : ∀ ptr, w.Usable ptr → (w.heap ptr).type = w.manager.routingPolicy.primaryBackend → used = some ptr
  fallback : w.manager.routingPolicy.autoFailover = true → w.NoneUsable w.manager.routingPolicy.primaryBackend →
    ∀ ptr, w.Usable ptr → (w.heap ptr).type = w.manager.routingPolicy.fallbackBackend → used = some ptr
  first : w.manager.routingPolicy.autoFailover = true → w.NoneUsable w.manager.routingPolicy.primaryBackend →
    w.NoneUsable w.manager.routingPolicy.fallbackBackend → used = w.firstUsable
  only : w.manager.routingPolicy.autoFailover = false → ∀ ptr, used = some ptr →
    w.Usable ptr ∧ (w.heap ptr).type = w.manager.routingPolicy.primaryBackend

/-- The call goes to the backend and its answer is the reply; no other is reached. With
nowhere to go under failover, it fails. -/
def Serves (w : StorageWorld (σ × Nat)) (env : CallEnv) (c : ManagerCall) (used : Option Nat) : Prop :=
  match c.run env w with
  | none => ∃ ptr, used = some ptr ∧ c.on env (w.heap ptr) = none
  | some (w', reply) =>
    (∀ ptr, w'.ioCalls ptr = w.ioCalls ptr + if used = some ptr ∧ c.reaches (w.heap ptr) = true then 1 else 0) ∧
    (∀ ptr, used = some ptr → ∃ data, c.on env (w.heap ptr) = some (data, reply)) ∧
    (used = none → w.manager.routingPolicy.autoFailover = true → reply = .ofCode .error)

def HonoursPolicy (w : StorageWorld (σ × Nat)) (env : CallEnv) (c : ManagerCall) : Prop :=
  c.valid = true → ∃ used, Routes w used ∧ Serves w env c used

/-- Without failover and without a usable primary, another backend is healthy, and the call
needs one. -/
def FailsOver (w : StorageWorld σ) (c : ManagerCall) : Prop :=
  c.valid = true ∧ w.manager.routingPolicy.autoFailover = false ∧
    w.NoneUsable w.manager.routingPolicy.primaryBackend ∧ ∃ ptr, w.firstUsable = some ptr ∧ c.reaches (w.heap ptr) = true

/-! ## The three scans -/

section
variable {w : StorageWorld σ}

theorem firstHealthy_map (w : StorageWorld σ) (wanted : StorageBackendType → Bool) (ptrs : List Nat) :
    w.firstHealthy wanted (ptrs.map some) =
      some (ptrs.find? fun ptr => wanted (w.heap ptr).type && (w.heap ptr).healthy) := by
  induction ptrs with
  | nil => rfl
  | cons ptr ptrs ih =>
    rw [List.map_cons, StorageWorld.firstHealthy, List.find?_cons]
    split
    · rename_i hptr
      rw [hptr]
    · rename_i hptr
      rw [Bool.not_eq_true] at hptr
      rw [hptr, ih]

/-- The backend that `select_backend` returns. -/
def selected (w : StorageWorld σ) : Option Nat :=
  let policy := w.manager.routingPolicy
  let usable := fun type => w.registered.find? fun ptr => decide ((w.heap ptr).type = type) && (w.heap ptr).healthy
  (usable policy.primaryBackend).or
    ((if policy.autoFailover then usable policy.fallbackBackend else none).or w.firstUsable)

theorem selectBackend_eq (hslots : w.slots = w.registered.map some) : selectBackend w = some (selected w) := by
  unfold selectBackend selected
  dsimp only
  split
  · -- no slot is in use, and every scan ends at once
    rename_i hcount
    have hnone : w.registered = [] := by
      rw [StorageWorld.registered, StorageWorld.slots, hcount, List.take_zero, List.filterMap_nil]
    simp [StorageWorld.firstUsable, hnone]
  · rw [hslots, firstHealthy_map, firstHealthy_map, firstHealthy_map, Option.bind_some]
    cases hprimary : w.registered.find? fun ptr =>
        decide ((w.heap ptr).type = w.manager.routingPolicy.primaryBackend) && (w.heap ptr).healthy with
    | some ptr => rfl
    | none =>
      rw [Option.none_or]
      dsimp only
      split
      · rw [Option.bind_some]
        cases w.registered.find? fun ptr =>
            decide ((w.heap ptr).type = w.manager.routingPolicy.fallbackBackend) && (w.heap ptr).healthy with
        | some ptr => rfl
        | none => simp [StorageWorld.firstUsable]
      · simp [StorageWorld.firstUsable]

/-- A scan for a type finds nothing just when no usable backend is of the type. -/
theorem find_eq_none_iff (w : StorageWorld σ) (type : StorageBackendType) :
    (w.registered.find? fun ptr => decide ((w.heap ptr).type = type) && (w.heap ptr).healthy) = none ↔ w.NoneUsable type := by
  rw [List.find?_eq_none]
  constructor
  · intro h ptr husable htype
    exact h ptr husable.1 (by simp [htype, husable.2])
  · intro h ptr hptr hfound
    simp only [Bool.and_eq_true, decide_eq_true_eq] at hfound
    exact h ptr ⟨hptr, hfound.2⟩ hfound.1

/-- And finds the one usable backend of its type. -/
theorem find_eq_some_iff (htypes : (w.registered.map fun ptr => (w.heap ptr).type).Nodup) (type : StorageBackendType)
    (ptr : Nat) :
    (w.registered.find? fun ptr => decide ((w.heap ptr).type = type) && (w.heap ptr).healthy) = some ptr ↔
      w.Usable ptr ∧ (w.heap ptr).type = type := by
  have hfound : ∀ q, (w.registered.find? fun ptr => decide ((w.heap ptr).type = type) && (w.heap ptr).healthy) = some q →
      w.Usable q ∧ (w.heap q).type = type := by
    intro q hq
    have hboth := List.find?_some hq
    simp only [Bool.and_eq_true, decide_eq_true_eq] at hboth
    exact ⟨⟨List.mem_of_find?_eq_some hq, hboth.2⟩, hboth.1⟩
  refine ⟨hfound ptr, ?_⟩
  rintro ⟨husable, htype⟩
  cases hfind : w.registered.find? fun ptr => decide ((w.heap ptr).type = type) && (w.heap ptr).healthy with
  | none => exact absurd htype ((find_eq_none_iff w type).1 hfind ptr husable)
  | some q =>
    obtain ⟨hq, hqtype⟩ := hfound q hfind
    rw [List.inj_on_of_nodup_map htypes hq.1 husable.1 (hqtype.trans htype.symm)]

/-- Without failover and a usable primary, the third scan still finds any backend. -/
theorem selected_other (hauto : w.manager.routingPolicy.autoFailover = false)
    (hprimary : w.NoneUsable w.manager.routingPolicy.primaryBackend) : selected w = w.firstUsable := by
  unfold selected
  dsimp only
  rw [(find_eq_none_iff w _).2 hprimary, Option.none_or, hauto, if_neg Bool.false_ne_true, Option.none_or]

/-- Unless failover is off and another backend would be taken, the choice is the one the policy wants. -/
theorem selected_routes (htypes : (w.registered.map fun ptr => (w.heap ptr).type).Nodup)
    (h : w.manager.routingPolicy.autoFailover = false → w.NoneUsable w.manager.routingPolicy.primaryBackend →
      w.firstUsable = none) : Routes w (selected w) where
  primary ptr husable htype := by
    unfold selected
    dsimp only
    rw [(find_eq_some_iff htypes _ ptr).2 ⟨husable, htype⟩, Option.some_or]
  fallback hauto hprimary ptr husable htype := by
    unfold selected
    dsimp only
    rw [(find_eq_none_iff w _).2 hprimary, Option.none_or, if_pos hauto,
      (find_eq_some_iff htypes _ ptr).2 ⟨husable, htype⟩, Option.some_or]
  first hauto hprimary hfallback := by
    unfold selected
    dsimp only
    rw [(find_eq_none_iff w _).2 hprimary, Option.none_or, if_pos hauto, (find_eq_none_iff w _).2 hfallback,
      Option.none_or]
  only hauto ptr hptr := by
    by_cases hprimary : w.NoneUsable w.manager.routingPolicy.primaryBackend
    · rw [selected_other hauto hprimary, h hauto hprimary] at hptr
      cases hptr
    · unfold selected at hptr
      dsimp only at hptr
      obtain ⟨q, hq⟩ := Option.ne_none_iff_exists'.1 fun hnone => hprimary ((find_eq_none_iff w _).1 hnone)
      rw [hq, Option.some_or] at hptr
      cases hptr
      exact (find_eq_some_iff htypes _ ptr).1 hq

/-! ## What a call does -/

theorem run_refused {c : ManagerCall} {env : CallEnv} (hv : c.valid = true) (hsel : selectBackend w = some none) :
    c.run env w = some (w, .ofCode .error) := by
  cases c with
  | read p off n =>
    have hn : n ≠ 0 := by simpa [ManagerCall.valid] using hv
    simp only [ManagerCall.run, storageManagerRead, if_neg hn, hsel, Option.bind_some]
  | write p off d =>
    have hd : d.length ≠ 0 := by simpa [ManagerCall.valid] using hv
    simp only [ManagerCall.run, storageManagerWrite, if_neg hd, hsel, Option.bind_some]
  | sync p => simp only [ManagerCall.run, storageManagerSync, hsel, Option.bind_some]

/-- A call goes to the backend that is selected, and its answer is the reply. -/
theorem run_selected {c : ManagerCall} (env : CallEnv) {ptr : Nat} (hv : c.valid = true)
    (hsel : selectBackend w = some (some ptr)) :
    (c.on env (w.heap ptr) = none ∧ c.run env w = none) ∨
    ∃ data reply w', c.on env (w.heap ptr) = some (data, reply) ∧ c.run env w = some (w', reply) ∧
      ∀ q, (w'.heap q).privateData = if q = ptr then data else (w.heap q).privateData := by
  have hset : ∀ (data : σ) q, ((w.setData ptr data).heap q).privateData =
      if q = ptr then data else (w.heap q).privateData := by
    intro data q
    rw [setData_heap]
    split <;> rfl
  cases c with
  | read p off n =>
    have hn : n ≠ 0 := by simpa [ManagerCall.valid] using hv
    simp only [ManagerCall.run, ManagerCall.on, storageManagerRead, if_neg hn, hsel, Option.bind_some]
    cases (w.heap ptr).readSync env (w.heap ptr).privateData p off n with
    | none => exact .inl ⟨rfl, rfl⟩
    | some r => exact .inr ⟨r.1, r.2, _, rfl, rfl, hset r.1⟩
  | write p off d =>
    have hd : d.length ≠ 0 := by simpa [ManagerCall.valid] using hv
    simp only [ManagerCall.run, ManagerCall.on, storageManagerWrite, if_neg hd, hsel, Option.bind_some]
    cases (w.heap ptr).writeSync env (w.heap ptr).privateData p off d with
    | none => exact .inl ⟨rfl, rfl⟩
    | some r => exact .inr ⟨r.1, r.2, _, rfl, rfl, hset r.1⟩
  | sync p =>
    simp only [ManagerCall.run, ManagerCall.on, storageManagerSync, hsel, Option.bind_some]
    cases (w.heap ptr).fsync with
    | none =>
      refine .inr ⟨_, _, w, rfl, rfl, fun q => ?_⟩
      split
      · rename_i hq
        rw [hq]
      · rfl
    | some f =>
      dsimp only
      cases f env (w.heap ptr).privateData p with
      | none => exact .inl ⟨rfl, rfl⟩
      | some r => exact .inr ⟨r.1, r.2, _, rfl, rfl, hset r.1⟩

end

/-- The meter counts a call that reaches a function of the backend. -/
theorem metered_on (c : ManagerCall) (env : CallEnv) (b : StorageInterface σ) :
    c.on env (metered b) =
      (c.on env b).map fun r => ((r.1, if c.reaches (metered b) = true then 1 else 0), r.2) := by
  cases c with
  | read p off n => rfl
  | write p off d => rfl
  | sync p =>
    obtain ⟨type, priv, cleanup, healthCheck, readSync, writeSync, fsync⟩ := b
    cases fsync with
    | none => rfl
    | some f => rfl

/-! ## Metered calls -/

section
variable {w : StorageWorld (σ × Nat)} {objects : Nat → StorageInterface σ} {env : CallEnv} {c : ManagerCall}

/-- Where a call goes and what it leaves in the meters. -/
theorem run_metered (env : CallEnv) (hheap : w.heap = fun ptr => metered (objects ptr)) (hv : c.valid = true) {ptr : Nat}
    (hsel : selectBackend w = some (some ptr)) :
    (c.on env (w.heap ptr) = none ∧ c.run env w = none) ∨
    ∃ data reply w', c.on env (w.heap ptr) = some (data, reply) ∧ c.run env w = some (w', reply) ∧
      ∀ q, w'.ioCalls q = w.ioCalls q + if ptr = q ∧ c.reaches (w.heap q) = true then 1 else 0 := by
  rcases run_selected env hv hsel with ⟨hon, hrun⟩ | ⟨data, reply, w', hon, hrun, hdata⟩
  · exact .inl ⟨hon, hrun⟩
  · refine .inr ⟨data, reply, w', hon, hrun, fun q => ?_⟩
    rw [StorageWorld.ioCalls, hdata]
    by_cases hq : q = ptr
    · subst hq
      simp only [hheap, metered_on] at hon
      obtain ⟨r, -, he⟩ := Option.map_eq_some_iff.1 hon
      cases he
      simp only [StorageWorld.ioCalls, hheap, if_pos trivial, true_and]
      simp only [metered, Nat.zero_add]
    · rw [if_neg hq, if_neg fun hand => hq hand.1.symm]
      rfl

theorem serves_selected (hheap : w.heap = fun ptr => metered (objects ptr)) (hslots : w.slots = w.registered.map some)
    (hv : c.valid = true) : Serves w env c (selected w) := by
  have hsel := selectBackend_eq hslots
  unfold Serves
  cases hchoice : selected w with
  | none =>
    rw [hchoice] at hsel
    rw [run_refused hv hsel]
    refine ⟨fun ptr => ?_, fun ptr hptr => (by cases hptr), fun _ _ => rfl⟩
    rw [if_neg fun hand => (by cases hand.1), Nat.add_zero]
  | some ptr =>
    rw [hchoice] at hsel
    rcases run_metered env hheap hv hsel with ⟨hon, hrun⟩ | ⟨data, reply, w', hon, hrun, hcalls⟩
    · rw [hrun]
      exact ⟨ptr, rfl, hon⟩
    · rw [hrun]
      refine ⟨fun q => ?_, fun q hq => ?_, fun hnone => by cases hnone⟩
      · simpa using hcalls q
      · cases hq
        exact ⟨data, hon⟩

/-- A call that reaches no function returns. -/
theorem on_unreached {b : StorageInterface σ} (h : c.reaches b = false) :
    c.on env b = some (b.privateData, .ofCode .ok) := by
  cases c with
  | read p off n => cases h
  | write p off d => cases h
  | sync p =>
    have hnone : b.fsync = none := Option.isSome_eq_false_iff.1 h |> Option.isNone_iff_eq_none.1
    simp only [ManagerCall.on, hnone]

/-- Without failover, a call that goes to a backend goes to none just when it calls no function of it. -/
theorem serves_none_iff (hheap : w.heap = fun ptr => metered (objects ptr)) (hslots : w.slots = w.registered.map some)
    (hv : c.valid = true) (hauto : w.manager.routingPolicy.autoFailover = false) {ptr : Nat}
    (hchoice : selected w = some ptr) : Serves w env c none ↔ c.reaches (w.heap ptr) = false := by
  have hsel := selectBackend_eq hslots
  rw [hchoice] at hsel
  unfold Serves
  rcases run_metered env hheap hv hsel with ⟨hon, hrun⟩ | ⟨data, reply, w', hon, hrun, hcalls⟩
  · rw [hrun]
    refine iff_of_false ?_ fun hreaches => ?_
    · rintro ⟨q, hq, -⟩
      cases hq
    · rw [on_unreached hreaches] at hon
      cases hon
  · rw [hrun]
    constructor
    · rintro ⟨hnone, -, -⟩
      -- the meter of the backend that was selected has not moved
      have hcount := (hnone ptr).symm.trans (hcalls ptr)
      rw [if_neg fun hand => (by cases hand.1)] at hcount
      by_contra hreaches
      rw [Bool.not_eq_false] at hreaches
      rw [if_pos ⟨rfl, hreaches⟩] at hcount
      omega
    · intro hreaches
      refine ⟨fun q => ?_, fun q hq => (by cases hq), fun _ hon => ?_⟩
      · have hother : ¬ (ptr = q ∧ c.reaches (w.heap q) = true) := by
          rintro ⟨rfl, hq⟩
          rw [hreaches] at hq
          cases hq
        rw [hcalls q, if_neg hother, if_neg]
        rintro ⟨hnone, -⟩
        cases hnone
      · rw [hauto] at hon
        cases hon

end

/-! ## Registries -/

section
variable {w : StorageWorld σ}

theorem registryOk_init (objects : Nat → StorageInterface σ) : RegistryOk ⟨storageManagerInit, objects⟩ :=
  (RegistryOk.of (w := ⟨storageManagerInit, objects⟩) [] rfl rfl (Nat.zero_le _) List.nodup_nil).2

theorem registry_keeps_ok : (registry : Machine (StorageWorld σ) RegistryCall XdeviceError).Keeps RegistryOk := by
  intro w call w' code hok hstep
  cases call with
  | register backend =>
    rcases register_cases hok backend with ⟨-, he⟩ | ⟨-, ⟨l₁, old, l₂, w1, -, -, he, -, hok1, -⟩ | ⟨-, w1, he, -, hok1, -⟩⟩
    · cases he.symm.trans hstep
      exact hok
    · cases he.symm.trans hstep
      exact hok1
    · cases he.symm.trans hstep
      exact hok1
  | unregister type =>
    rcases unregister_cases hok type with he | ⟨l₁, old, l₂, w1, -, he, -, hok1, -⟩
    · cases he.symm.trans hstep
      exact hok
    · cases he.symm.trans hstep
      exact hok1
  | cleanup =>
    cases hstep
    exact (storageManagerCleanup_spec hok).2.1

/-- Registered backends have slots of their own, and types of their own whatever is behind the pointers. -/
theorem routed_registry (hok : RegistryOk w) (policy : RoutingPolicy) {heap : Nat → StorageInterface σ}
    (htypes : ∀ ptr, (heap ptr).type = (w.heap ptr).type) :
    (w.routed policy heap).slots = (w.routed policy heap).registered.map some ∧
      ((w.routed policy heap).registered.map fun ptr => ((w.routed policy heap).heap ptr).type).Nodup := by
  refine ⟨hok.slots, ?_⟩
  have hsame : (fun ptr => ((w.routed policy heap).heap ptr).type) = fun ptr => (w.heap ptr).type := by
    funext ptr
    exact htypes ptr
  rw [hsame]
  exact hok.types

theorem honours_iff (hok : RegistryOk w) (policy : RoutingPolicy) {heap : Nat → StorageInterface σ}
    (htypes : ∀ ptr, (heap ptr).type = (w.heap ptr).type) (env : CallEnv) (c : ManagerCall) :
    HonoursPolicy (w.routed policy heap) env c ↔ ¬ FailsOver (w.routed policy heap) c := by
  obtain ⟨hslots, hnodup⟩ := routed_registry hok policy htypes
  have hheap : (w.routed policy heap).heap = fun ptr => metered (heap ptr) := rfl
  generalize w.routed policy heap = v at hslots hnodup hheap ⊢
  constructor
  · intro h hfails
    obtain ⟨hv, hauto, hprimary, ptr, hfirst, hreaches⟩ := hfails
    have hchoice := (selected_other hauto hprimary).trans hfirst
    obtain ⟨used, hroutes, hserves⟩ := h hv
    -- the policy leaves no backend, and one is reached
    cases used with
    | some q =>
      obtain ⟨husable, htype⟩ := hroutes.only hauto q rfl
      exact hprimary q husable htype
    | none =>
      rw [serves_none_iff hheap hslots hv hauto hchoice, hreaches] at hserves
      cases hserves
  · intro hfails hv
    by_cases hother : v.manager.routingPolicy.autoFailover = false ∧
        v.NoneUsable v.manager.routingPolicy.primaryBackend ∧ v.firstUsable ≠ none
    · obtain ⟨hauto, hprimary, hfirst⟩ := hother
      obtain ⟨ptr, hptr⟩ := Option.ne_none_iff_exists'.1 hfirst
      have hchoice := (selected_other hauto hprimary).trans hptr
      have hreaches : c.reaches (v.heap ptr) = false := by
        by_contra hreaches
        exact hfails ⟨hv, hauto, hprimary, ptr, hptr, by simpa using hreaches⟩
      refine ⟨none, ⟨?_, ?_, ?_, ?_⟩, (serves_none_iff hheap hslots hv hauto hchoice).2 hreaches⟩
      · intro q husable htype
        exact absurd htype (hprimary q husable)
      · intro hon
        exact absurd (hauto.symm.trans hon) (by decide)
      · intro hon
        exact absurd (hauto.symm.trans hon) (by decide)
      · intro _ q hq
        cases hq
    · refine ⟨selected v, selected_routes hnodup fun hauto hprimary => ?_, serves_selected hheap hslots hv⟩
      by_contra hfirst
      exact hother ⟨hauto, hprimary, hfirst⟩

end

/-- Over every registry that the calls of a program lead to, under every policy and with any
backends of the registered types behind the pointers, in any health: a call goes where the
policy says, unless failover is off, no primary is usable, and the first healthy backend has
the function that the call needs. -/
theorem routing_policy_iff (objects : Nat → StorageInterface σ) {calls : List RegistryCall} {w : StorageWorld σ}
    {codes : List XdeviceError} (hrun : registry.run ⟨storageManagerInit, objects⟩ calls = some (w, codes))
    (policy : RoutingPolicy) (heap : Nat → StorageInterface σ) (htypes : ∀ ptr, (heap ptr).type = (w.heap ptr).type)
    (env : CallEnv) (c : ManagerCall) :
    HonoursPolicy (w.routed policy heap) env c ↔ ¬ FailsOver (w.routed policy heap) c :=
  honours_iff (registry_keeps_ok.run (registryOk_init objects) hrun) policy htypes env c

theorem twoStores_registered : registry.run ⟨storageManagerInit, twoStores.heap⟩ [.register 0, .register 1] =
    some (twoStores, [.ok, .ok]) := rfl

/-- The backends of `twoStores` with only the Mock backend up. -/
def onlyMockUp (ptr : Nat) : StorageInterface (Bool × FileMap) :=
  { twoStores.heap ptr with privateData := ((twoStores.heap ptr).type = .mock, FileMap.empty) }

/-- With failover, a write goes to the Mock backend when the Local one is down. -/
theorem failover_honours :
    HonoursPolicy (twoStores.routed ⟨.local, .mock, true⟩ onlyMockUp) .calm (.write (cstr "a") 0 [1]) := by
  refine (routing_policy_iff twoStores.heap twoStores_registered _ onlyMockUp (fun _ => rfl) _ _).2 ?_
  rintro ⟨-, hauto, -⟩
  cases hauto

/-- Without failover it goes there as well. -/
theorem fails_over_without_failover :
    registry.run ⟨storageManagerInit, twoStores.heap⟩ [.register 0, .register 1] = some (twoStores, [.ok, .ok]) ∧
    ((ManagerCall.write (cstr "a") 0 [1]).run .calm (twoStores.routed ⟨.local, .mock, false⟩ onlyMockUp)).map
      (fun r => (r.1.ioCalls 0, r.1.ioCalls 1, r.2)) = some (0, 1, .ofCode .ok) ∧
    ¬ HonoursPolicy (twoStores.routed ⟨.local, .mock, false⟩ onlyMockUp) .calm (.write (cstr "a") 0 [1]) := by
  have hok : RegistryOk twoStores := registry_keeps_ok.run (registryOk_init twoStores.heap) twoStores_registered
  have htypes : ∀ ptr, (onlyMockUp ptr).type = (twoStores.heap ptr).type := fun _ => rfl
  refine ⟨twoStores_registered, by decide, ?_⟩
  rw [honours_iff hok _ htypes, not_not]
  refine ⟨rfl, rfl, ?_, 1, by decide, rfl⟩
  rintro ptr ⟨-, hup⟩ htype
  have hmock : (twoStores.heap ptr).type = .mock := by
    have hcheck : (if decide ((twoStores.heap ptr).type = .mock) = true then XdeviceError.ok else .io) = .ok :=
      of_decide_eq_true hup
    by_contra hno
    rw [if_neg (by simpa using hno)] at hcheck
    cases hcheck
  have hlocal : (twoStores.heap ptr).type = .local := htype
  cases hmock.symm.trans hlocal

end XDevice
