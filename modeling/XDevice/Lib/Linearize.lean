import XDevice.Lib.Machine
import Mathlib.Data.List.Perm.Basic
import Mathlib.Data.List.ReduceOption
import Mathlib.Data.List.Range
/-!
# Calls in any order

Calls that run at the same time, each acting once on the main state and then making its
updates to a second state one by one. If what is looked at of the second state does not
depend on the order of the updates, then the calls might as well have been made one
after the other, in the order in which they acted.
-/

namespace Lib

/-- What a call does when it acts, with the updates it has left and its reply, and what an
update does. -/
structure Calls (σ τ α β δ : Type) where
  act : σ → α → Option (σ × List δ × β)
  update : τ → δ → τ

/-- A call that is running; `none` before it acts. -/
structure CallThread (α β δ : Type) where
  call : α
  phase : Option (List δ × β)

/-- The call has acted and made all its updates. -/
def CallThread.returned {α β δ : Type} (t : CallThread α β δ) : Bool :=
  match t.phase with
  | some ([], _) => true
  | _ => false

structure CallWorld (σ τ α β δ : Type) where
  main : σ
  late : τ
  threads : List (CallThread α β δ)

namespace Calls

variable {σ τ α β δ κ : Type}

/-- One call after the other, each with all its updates. -/
def sequential (C : Calls σ τ α β δ) : Machine (σ × τ) α β where
  step s a := (C.act s.1 a).map fun (main, updates, b) => ((main, updates.foldl C.update s.2), b)

/-- The calls take steps in any order; an action says whose turn it is, and the output which
call acts, if any. -/
def concurrent (C : Calls σ τ α β δ) : Machine (CallWorld σ τ α β δ) Nat (Option Nat) where
  step s i :=
    (s.threads[i]?).bind fun t =>
      match t.phase with
      | none => (C.act s.main t.call).map fun (main, r) => (⟨main, s.late, s.threads.set i ⟨t.call, some r⟩⟩, some i)
      | some ([], _) => none
      | some (d :: updates, b) =>
        some (⟨s.main, C.update s.late d, s.threads.set i ⟨t.call, some (updates, b)⟩⟩, none)

end Calls

namespace CallWorld

variable {σ τ α β δ : Type}

def start (main : σ) (late : τ) (calls : List α) : CallWorld σ τ α β δ := ⟨main, late, calls.map fun a => ⟨a, none⟩⟩

def calls (s : CallWorld σ τ α β δ) : List α := s.threads.map CallThread.call

/-- The updates that a call has left. -/
def left (t : CallThread α β δ) : List δ := (t.phase.map Prod.fst).getD []

def pending (s : CallWorld σ τ α β δ) : List δ := s.threads.flatMap left

/-- The call has acted, and its reply is `b`. -/
def Replies (s : CallWorld σ τ α β δ) (i : Nat) (b : β) : Prop :=
  ∃ a updates, s.threads[i]? = some ⟨a, some (updates, b)⟩

def Acted (s : CallWorld σ τ α β δ) (i : Nat) : Prop := ∃ b, s.Replies i b

def Done (s : CallWorld σ τ α β δ) : Prop := ∀ t ∈ s.threads, t.returned = true

instance (s : CallWorld σ τ α β δ) : Decidable s.Done := inferInstanceAs (Decidable (∀ t ∈ s.threads, t.returned = true))

theorem Done.phase {s : CallWorld σ τ α β δ} (h : s.Done) {t : CallThread α β δ} (ht : t ∈ s.threads) :
    ∃ b, t.phase = some ([], b) := by
  have hr := h t ht
  unfold CallThread.returned at hr
  split at hr
  · rename_i b hb
    exact ⟨b, hb⟩
  · cases hr

/-- No updates are left when all calls have returned. -/
theorem Done.pending {s : CallWorld σ τ α β δ} (h : s.Done) : s.pending = [] := by
  rw [CallWorld.pending, List.flatMap_eq_nil_iff]
  intro t ht
  obtain ⟨b, hb⟩ := h.phase ht
  rw [left, hb]
  rfl

end CallWorld

namespace Calls

open CallWorld

variable {σ τ α β δ κ : Type} {C : Calls σ τ α β δ} {s s' : CallWorld σ τ α β δ} {i : Nat} {out : Option Nat}

/-- A step is that of a call that acts, or of one that makes an update. -/
theorem concurrent_cases (h : C.concurrent.step s i = some (s', out)) :
    (∃ a main updates b, s.threads[i]? = some ⟨a, none⟩ ∧ C.act s.main a = some (main, updates, b) ∧ out = some i ∧
      s' = ⟨main, s.late, s.threads.set i ⟨a, some (updates, b)⟩⟩) ∨
    ∃ a d updates b, s.threads[i]? = some ⟨a, some (d :: updates, b)⟩ ∧ out = none ∧
      s' = ⟨s.main, C.update s.late d, s.threads.set i ⟨a, some (updates, b)⟩⟩ := by
  obtain ⟨⟨a, phase⟩, ht, hs⟩ := Option.bind_eq_some_iff.1 h
  match phase with
  | none =>
    obtain ⟨⟨main, updates, b⟩, hact, hs⟩ := Option.map_eq_some_iff.1 hs
    cases hs
    exact .inl ⟨a, main, updates, b, ht, hact, rfl, rfl⟩
  | some ([], b) => cases hs
  | some (d :: updates, b) =>
    cases hs
    exact .inr ⟨a, d, updates, b, ht, rfl, rfl⟩

theorem calls_step (h : C.concurrent.step s i = some (s', out)) : s'.calls = s.calls := by
  have hset : ∀ {a : α} {p q : Option (List δ × β)}, s.threads[i]? = some ⟨a, p⟩ →
      (s.threads.set i ⟨a, q⟩).map CallThread.call = s.threads.map CallThread.call := by
    intro a p q ht
    obtain ⟨hi, ht⟩ := List.getElem?_eq_some_iff.1 ht
    rw [List.map_set]
    refine (congrArg (List.set _ i) ?_).trans (List.set_getElem_self (by rwa [List.length_map]))
    rw [List.getElem_map, ht]
  rcases concurrent_cases h with ⟨a, main, updates, b, ht, -, -, rfl⟩ | ⟨a, d, updates, b, ht, -, rfl⟩
  · exact hset ht
  · exact hset ht

/-- A call that has acted keeps its reply. -/
theorem replies_step (h : C.concurrent.step s i = some (s', out)) {j : Nat} {b : β} (hb : s.Replies j b) :
    s'.Replies j b := by
  obtain ⟨a, updates, hj⟩ := hb
  by_cases hij : i = j
  · subst hij
    have hlt := (List.getElem?_eq_some_iff.1 hj).1
    rcases concurrent_cases h with ⟨a', main, updates', b', ht, -⟩ | ⟨a', d, updates', b', ht, -, rfl⟩
    · rw [hj] at ht
      cases ht
    · rw [hj] at ht
      cases ht
      exact ⟨a, updates', List.getElem?_set_self hlt⟩
  · refine ⟨a, updates, ?_⟩
    rcases concurrent_cases h with ⟨a', main, updates', b', ht, -, -, rfl⟩ | ⟨a', d, updates', b', ht, -, rfl⟩
    · exact (List.getElem?_set_ne hij).trans hj
    · exact (List.getElem?_set_ne hij).trans hj

theorem replies_run {sched : List Nat} {outs : List (Option Nat)} (h : C.concurrent.run s sched = some (s', outs)) {j : Nat}
    {b : β} (hb : s.Replies j b) : s'.Replies j b := by
  have hkeeps : C.concurrent.Keeps fun s => s.Replies j b := fun _ _ _ _ hI hs => replies_step hs hI
  exact hkeeps.run hb h

theorem acted_step (h : C.concurrent.step s i = some (s', out)) (j : Nat) : s'.Acted j ↔ out = some j ∨ s.Acted j := by
  have hset : ∀ {a : α} {p : Option (List δ × β)} {r : List δ × β}, s.threads[i]? = some ⟨a, p⟩ →
      ((∃ b a' updates, (s.threads.set i ⟨a, some r⟩)[j]? = some ⟨a', some (updates, b)⟩) ↔ i = j ∨ s.Acted j) := by
    intro a p r ht
    by_cases hij : i = j
    · subst hij
      refine iff_of_true ⟨r.2, a, r.1, ?_⟩ (.inl rfl)
      exact List.getElem?_set_self (List.getElem?_eq_some_iff.1 ht).1
    · rw [or_iff_right hij, List.getElem?_set_ne hij]
      rfl
  rcases concurrent_cases h with ⟨a, main, updates, b, ht, -, rfl, rfl⟩ | ⟨a, d, updates, b, ht, rfl, rfl⟩
  · rw [Option.some.injEq]
    exact hset ht
  · refine (hset ht).trans ?_
    rw [or_iff_right_of_imp (fun hij => hij ▸ ⟨b, a, d :: updates, ht⟩), or_iff_right (by simp)]

/-! ## The updates that are left -/

theorem flatMap_set_perm {ρ ε : Type} {f : ρ → List ε} {l : List ρ} {i : Nat} {x y : ρ} (hi : l[i]? = some x) :
    ((l.set i y).flatMap f ++ f x).Perm (l.flatMap f ++ f y) := by
  induction l generalizing i with
  | nil => cases hi
  | cons z l ih =>
    cases i with
    | zero =>
      obtain rfl : z = x := Option.some.inj hi
      rw [List.set_cons_zero, List.flatMap_cons, List.flatMap_cons, List.append_assoc, List.append_assoc]
      calc f y ++ (l.flatMap f ++ f z)
        _ |>.Perm ((l.flatMap f ++ f z) ++ f y) := List.perm_append_comm
        _ |>.Perm ((f z ++ l.flatMap f) ++ f y) := List.perm_append_comm.append_right _
        _ |>.Perm (f z ++ (l.flatMap f ++ f y)) := by rw [List.append_assoc]
    | succ i =>
      rw [List.set_cons_succ, List.flatMap_cons, List.flatMap_cons, List.append_assoc, List.append_assoc]
      exact (ih hi).append_left _

/-- An update that is made is no longer left. -/
theorem left_set_perm {a : α} {d : δ} {updates : List δ} {b : β} (ht : s.threads[i]? = some ⟨a, some (d :: updates, b)⟩) :
    (s.threads.flatMap left).Perm (d :: (s.threads.set i ⟨a, some (updates, b)⟩).flatMap left) := by
  have hperm := flatMap_set_perm (f := left) (y := ⟨a, some (updates, b)⟩) ht
  exact (List.perm_append_right_iff updates).1 (hperm.symm.trans List.perm_middle)

section
variable {v : τ → κ} {u : κ → δ → κ} {t : σ × τ}

/-- With the updates that are left, the second state of the calls in any order looks as that
of the calls made one after the other. -/
structure Caught (v : τ → κ) (u : κ → δ → κ) (s : CallWorld σ τ α β δ) (t : σ × τ) : Prop where
  main : t.1 = s.main
  late : v t.2 = s.pending.foldl u (v s.late)

theorem view_foldl (hv : ∀ t d, v (C.update t d) = u (v t) d) (updates : List δ) (late : τ) :
    v (updates.foldl C.update late) = updates.foldl u (v late) := by
  induction updates generalizing late with
  | nil => rfl
  | cons d updates ih => rw [List.foldl_cons, List.foldl_cons, ih, hv]

/-- A call that acts is made, and a call that makes an update does nothing more. -/
theorem Caught.step [RightCommutative u] (hv : ∀ t d, v (C.update t d) = u (v t) d) (hc : Caught v u s t)
    (h : C.concurrent.step s i = some (s', out)) :
    (∃ a t' b, out = some i ∧ s.calls[i]? = some a ∧ C.sequential.step t a = some (t', b) ∧ Caught v u s' t' ∧
      s'.Replies i b ∧ ¬ s.Acted i) ∨
    out = none ∧ Caught v u s' t := by
  rcases concurrent_cases h with ⟨a, main, updates, b, ht, hact, rfl, rfl⟩ | ⟨a, d, updates, b, ht, rfl, rfl⟩
  · refine .inl ⟨a, (main, updates.foldl C.update t.2), b, rfl, ?_, ?_, ⟨rfl, ?_⟩, ?_, ?_⟩
    · rw [CallWorld.calls, List.getElem?_map, ht]
      rfl
    · rw [Calls.sequential]
      dsimp only
      rw [hc.main, hact]
      rfl
    · have hperm := flatMap_set_perm (f := left) (y := ⟨a, some (updates, b)⟩) ht
      have hnone : left (⟨a, none⟩ : CallThread α β δ) = [] := rfl
      rw [hnone, List.append_nil] at hperm
      exact ((view_foldl hv _ _).trans (congrArg (fun z => updates.foldl u z) hc.late)).trans
        (List.foldl_append.symm.trans (hperm.symm.foldl_eq _))
    · exact ⟨a, updates, List.getElem?_set_self (List.getElem?_eq_some_iff.1 ht).1⟩
    · rintro ⟨b, a', updates', hr⟩
      rw [ht] at hr
      cases hr
  · refine .inr ⟨rfl, hc.main, ?_⟩
    rw [hc.late, CallWorld.pending, (left_set_perm ht).foldl_eq, List.foldl_cons, ← hv]
    rfl

/-- The calls made one after the other in the order in which they act give the same replies. -/
theorem Caught.run [RightCommutative u] (hv : ∀ t d, v (C.update t d) = u (v t) d) {sched : List Nat}
    {outs : List (Option Nat)} (hc : Caught v u s t) (h : C.concurrent.run s sched = some (s', outs)) :
    ∃ t' replies, C.sequential.run t (outs.reduceOption.filterMap fun i => s.calls[i]?) = some (t', replies) ∧
      Caught v u s' t' ∧ List.Forall₂ s'.Replies outs.reduceOption replies ∧ outs.reduceOption.Nodup ∧
      ∀ i, i ∈ outs.reduceOption ↔ s'.Acted i ∧ ¬ s.Acted i := by
  induction sched generalizing s t outs with
  | nil =>
    cases h
    exact ⟨t, [], rfl, hc, .nil, List.nodup_nil, fun i => iff_of_false List.not_mem_nil fun hi => hi.2 hi.1⟩
  | cons i sched ih =>
    obtain ⟨s1, out, outs, hs, hrest, rfl⟩ := Machine.run_cons_eq_some.1 h
    have hcalls := calls_step hs
    have hacted := acted_step hs
    rcases hc.step hv hs with ⟨a, t1, b, rfl, ha, hseq, hc1, hb, hnew⟩ | ⟨rfl, hc1⟩
    · obtain ⟨t', replies, hrun, hc', hreplies, hnodup, hmem⟩ := ih hc1 hrest
      rw [hcalls] at hrun
      have hnot : i ∉ outs.reduceOption := fun hi => ((hmem i).1 hi).2 ⟨b, hb⟩
      refine ⟨t', b :: replies, ?_, hc', ?_, ?_, ?_⟩
      · rw [List.reduceOption_cons_of_some, List.filterMap_cons_some ha]
        exact Machine.run_cons_eq_some.2 ⟨t1, b, replies, hseq, hrun, rfl⟩
      · rw [List.reduceOption_cons_of_some]
        exact .cons (replies_run hrest hb) hreplies
      · rw [List.reduceOption_cons_of_some]
        exact List.nodup_cons.2 ⟨hnot, hnodup⟩
      · intro j
        rw [List.reduceOption_cons_of_some, List.mem_cons, hmem, hacted, Option.some.injEq]
        constructor
        · rintro (rfl | ⟨hlast, hn⟩)
          · exact ⟨⟨b, replies_run hrest hb⟩, hnew⟩
          · exact ⟨hlast, fun hj => hn (.inr hj)⟩
        · rintro ⟨hlast, hn⟩
          by_cases hij : i = j
          · exact .inl hij.symm
          · exact .inr ⟨hlast, fun hj => hj.elim hij hn⟩
    · obtain ⟨t', replies, hrun, hc', hreplies, hnodup, hmem⟩ := ih hc1 hrest
      rw [hcalls] at hrun
      rw [List.reduceOption_cons_of_none]
      refine ⟨t', replies, hrun, hc', hreplies, hnodup, fun j => ?_⟩
      rw [hmem, hacted, or_iff_right (by simp)]

theorem threads_start (main : σ) (late : τ) (calls : List α) (f : CallThread α β δ → List δ) (hf : ∀ a, f ⟨a, none⟩ = []) :
    (start main late calls : CallWorld σ τ α β δ).threads.flatMap f = [] := by
  rw [List.flatMap_eq_nil_iff]
  rintro ⟨a, phase⟩ hmem
  obtain ⟨a', -, ha⟩ := List.mem_map.1 hmem
  cases ha
  exact hf _

theorem caught_start (v : τ → κ) (u : κ → δ → κ) (main : σ) (late : τ) (calls : List α) :
    Caught v u (start main late calls : CallWorld σ τ α β δ) (main, late) := by
  refine ⟨rfl, ?_⟩
  rw [CallWorld.pending, threads_start main late calls left fun _ => rfl]
  rfl

/-- Calls that have all returned might as well have been made one after the other, in the
order in which they acted. -/
theorem linearizes [RightCommutative u] (hv : ∀ t d, v (C.update t d) = u (v t) d) {main : σ} {late : τ} {calls : List α}
    {sched : List Nat} {outs : List (Option Nat)} (h : C.concurrent.run (start main late calls) sched = some (s, outs))
    (hdone : s.Done) :
    outs.reduceOption.Perm (List.range calls.length) ∧
    ∃ t replies, C.sequential.run (main, late) (outs.reduceOption.filterMap fun i => calls[i]?) = some (t, replies) ∧
      t.1 = s.main ∧ v t.2 = v s.late ∧ List.Forall₂ s.Replies outs.reduceOption replies := by
  obtain ⟨t, replies, hrun, hc, hreplies, hnodup, hmem⟩ := (caught_start v u main late calls).run hv h
  have hstart : (start main late calls : CallWorld σ τ α β δ).calls = calls := by
    rw [CallWorld.calls, CallWorld.start, List.map_map]
    exact List.map_id _
  have hcalls : s.calls = calls := by
    have hkeeps : C.concurrent.Keeps fun s => s.calls = calls := fun _ _ _ _ hI hs => (calls_step hs).trans hI
    exact hkeeps.run hstart h
  have hlate := hc.late
  rw [hdone.pending] at hlate
  rw [hstart] at hrun
  refine ⟨(List.perm_ext_iff_of_nodup hnodup List.nodup_range).2 fun i => ?_, t, replies, hrun, hc.main, hlate, hreplies⟩
  have hlen : s.threads.length = calls.length := by rw [← hcalls, CallWorld.calls, List.length_map]
  rw [hmem, List.mem_range, ← hlen]
  constructor
  · rintro ⟨⟨b, a, updates, hi⟩, -⟩
    exact (List.getElem?_eq_some_iff.1 hi).1
  · intro hi
    refine ⟨?_, ?_⟩
    · obtain ⟨b, hb⟩ := hdone.phase (List.getElem_mem hi)
      refine ⟨b, s.threads[i].call, [], ?_⟩
      rw [List.getElem?_eq_getElem hi, ← hb]
    · rintro ⟨b, a, updates, hi⟩
      have hmem := List.mem_of_getElem? hi
      obtain ⟨a', -, ha⟩ := List.mem_map.1 hmem
      cases ha

/-- The updates of the calls that have acted, when they can be told from the replies. -/
def acted (e : α → β → List δ) (t : CallThread α β δ) : List δ :=
  match t.phase with
  | none => []
  | some (_, b) => e t.call b

/-- Each call is counted once: the second state looks as if each call that has acted had made
its updates, in whatever order, but for those that are left. -/
theorem counted_run [RightCommutative u] (hv : ∀ t d, v (C.update t d) = u (v t) d) {e : α → β → List δ} {I : σ → Prop}
    (hact : ∀ main a main' updates b, I main → C.act main a = some (main', updates, b) →
      I main' ∧ ∀ z, updates.foldl u z = (e a b).foldl u z) {z : κ} (h0 : I s.main)
    (hz : s.pending.foldl u (v s.late) = (s.threads.flatMap (acted e)).foldl u z) {sched : List Nat}
    {outs : List (Option Nat)} (h : C.concurrent.run s sched = some (s', outs)) :
    s'.pending.foldl u (v s'.late) = (s'.threads.flatMap (acted e)).foldl u z := by
  have hkeeps : C.concurrent.Keeps fun s =>
      I s.main ∧ s.pending.foldl u (v s.late) = (s.threads.flatMap (acted e)).foldl u z := by
    rintro s i s' out ⟨hI, hz⟩ hs
    rcases concurrent_cases hs with ⟨a, main, updates, b, ht, hrun, rfl, rfl⟩ | ⟨a, d, updates, b, ht, rfl, rfl⟩
    · obtain ⟨hI', hsame⟩ := hact _ _ _ _ _ hI hrun
      refine ⟨hI', ?_⟩
      have hleft := flatMap_set_perm (f := left) (y := ⟨a, some (updates, b)⟩) ht
      have hmade := flatMap_set_perm (f := acted e) (y := ⟨a, some (updates, b)⟩) ht
      have hnone : left (⟨a, none⟩ : CallThread α β δ) = [] := rfl
      have hnone' : acted e (⟨a, none⟩ : CallThread α β δ) = [] := rfl
      rw [hnone, List.append_nil] at hleft
      rw [hnone', List.append_nil] at hmade
      calc ((s.threads.set i ⟨a, some (updates, b)⟩).flatMap left).foldl u (v s.late)
        _ = (s.threads.flatMap left ++ updates).foldl u (v s.late) := hleft.foldl_eq _
        _ = updates.foldl u (s.pending.foldl u (v s.late)) := List.foldl_append
        _ = (e a b).foldl u ((s.threads.flatMap (acted e)).foldl u z) := by rw [hz, hsame]
        _ = (s.threads.flatMap (acted e) ++ e a b).foldl u z := List.foldl_append.symm
        _ = ((s.threads.set i ⟨a, some (updates, b)⟩).flatMap (acted e)).foldl u z := (hmade.foldl_eq _).symm
    · refine ⟨hI, ?_⟩
      have hmade := flatMap_set_perm (f := acted e) (y := ⟨a, some (updates, b)⟩) ht
      calc ((s.threads.set i ⟨a, some (updates, b)⟩).flatMap left).foldl u (v (C.update s.late d))
        _ = (d :: (s.threads.set i ⟨a, some (updates, b)⟩).flatMap left).foldl u (v s.late) := by
          rw [List.foldl_cons, hv]
        _ = s.pending.foldl u (v s.late) := ((left_set_perm ht).foldl_eq _).symm
        _ = (s.threads.flatMap (acted e)).foldl u z := hz
        _ = ((s.threads.set i ⟨a, some (updates, b)⟩).flatMap (acted e)).foldl u z :=
          (((List.perm_append_right_iff (e a b)).1 hmade).foldl_eq _).symm
  exact (hkeeps.run ⟨h0, hz⟩ h).2

/-- When all calls have returned, nothing is left out. -/
theorem counted_done [RightCommutative u] (hv : ∀ t d, v (C.update t d) = u (v t) d) {e : α → β → List δ} {I : σ → Prop}
    (hact : ∀ main a main' updates b, I main → C.act main a = some (main', updates, b) →
      I main' ∧ ∀ z, updates.foldl u z = (e a b).foldl u z) {main : σ} {late : τ} {calls : List α} (h0 : I main)
    {sched : List Nat} {outs : List (Option Nat)} (h : C.concurrent.run (start main late calls) sched = some (s, outs))
    (hdone : s.Done) : v s.late = (s.threads.flatMap (acted e)).foldl u (v late) := by
  have hstart : (start main late calls : CallWorld σ τ α β δ).pending.foldl u (v late) =
      ((start main late calls : CallWorld σ τ α β δ).threads.flatMap (acted e)).foldl u (v late) := by
    rw [CallWorld.pending, threads_start main late calls left fun _ => rfl,
      threads_start main late calls (acted e) fun _ => rfl]
  have hrun := counted_run hv hact (z := v late) (s := start main late calls) h0 hstart h
  rwa [hdone.pending] at hrun

end

end Calls

end Lib
