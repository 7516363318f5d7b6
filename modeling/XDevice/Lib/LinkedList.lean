import Mathlib.Data.List.Nodup
import Mathlib.Data.List.Perm.Subperm
/-!
# Memory by hand, and linked lists in it

A heap of blocks that are allocated and freed one by one, and singly linked lists whose
nodes are such blocks. Touching a block that is not there is undefined (`none`), and so is
a loop over links that never ends.
-/

namespace Lib

variable {α : Type}

/-! ## Heaps -/

/-- The blocks that are there, by address; `next` is the address of the next allocation. -/
structure Heap (α : Type) where
  get : Nat → Option α
  next : Nat

namespace Heap

def empty : Heap α := ⟨fun _ => none, 0⟩

/-- `get` with the block at `a` replaced. -/
def update (h : Heap α) (a : Nat) (x : Option α) : Heap α := { h with get := fun b => if b = a then x else h.get b }

def alloc (h : Heap α) (x : α) : Heap α × Nat := ({ h.update h.next (some x) with next := h.next + 1 }, h.next)

def set (h : Heap α) (a : Nat) (x : α) : Option (Heap α) :=
  if (h.get a).isSome then some (h.update a (some x)) else none

def free (h : Heap α) (a : Nat) : Option (Heap α) := if (h.get a).isSome then some (h.update a none) else none

/-- The addresses `as` were given out, each once, and there is no block at any other: they may
be dangling, but nothing has leaked. -/
structure CoveredBy (h : Heap α) (as : List Nat) : Prop where
  nodup : as.Nodup
  mem : ∀ a, (h.get a).isSome = true → a ∈ as
  fresh : ∀ a ∈ as, a < h.next

/-- The blocks that are there are those at `as`, each address once. -/
structure Owns (h : Heap α) (as : List Nat) : Prop extends h.CoveredBy as where
  held : ∀ a ∈ as, (h.get a).isSome = true

section
variable {h h' : Heap α} {as as' : List Nat} {a b : Nat} {x : α}

@[simp] theorem update_self (h : Heap α) (a : Nat) (x : Option α) : (h.update a x).get a = x := if_pos rfl

theorem update_other (h : Heap α) (x : Option α) (hb : b ≠ a) : (h.update a x).get b = h.get b := if_neg hb

theorem set_eq (ha : (h.get a).isSome = true) (x : α) : h.set a x = some (h.update a (some x)) := if_pos ha

theorem free_eq (ha : (h.get a).isSome = true) : h.free a = some (h.update a none) := if_pos ha

theorem CoveredBy.perm (hc : h.CoveredBy as) (hp : as.Perm as') : h.CoveredBy as' where
  nodup := hp.nodup_iff.1 hc.nodup
  mem a ha := hp.mem_iff.1 (hc.mem a ha)
  fresh a ha := hc.fresh a (hp.mem_iff.2 ha)

/-- Nothing is there that nothing covers. -/
theorem CoveredBy.get_nil (hc : h.CoveredBy []) (a : Nat) : h.get a = none := by
  by_contra hne
  exact List.not_mem_nil (hc.mem a (Option.isSome_iff_ne_none.2 hne))

theorem CoveredBy.next_notMem (hc : h.CoveredBy as) : h.next ∉ as := fun hmem => Nat.lt_irrefl _ (hc.fresh _ hmem)

theorem CoveredBy.alloc (hc : h.CoveredBy as) (x : α) : (h.alloc x).1.CoveredBy (h.next :: as) where
  nodup := List.nodup_cons.2 ⟨hc.next_notMem, hc.nodup⟩
  mem a ha := by
    by_cases hnext : a = h.next
    · exact hnext ▸ List.mem_cons_self
    · refine List.mem_cons_of_mem _ (hc.mem a ?_)
      rwa [Heap.alloc, update_other h _ hnext] at ha
  fresh a ha := by
    rcases List.mem_cons.1 ha with rfl | ha
    · exact Nat.lt_succ_self _
    · exact Nat.lt_succ_of_lt (hc.fresh a ha)

theorem CoveredBy.update (hc : h.CoveredBy as) (ha : a ∈ as) (x : Option α) : (h.update a x).CoveredBy as where
  nodup := hc.nodup
  mem b hb := by
    by_cases hab : b = a
    · exact hab ▸ ha
    · exact hc.mem b (by rwa [update_other h _ hab] at hb)
  fresh := hc.fresh

theorem CoveredBy.free (hc : h.CoveredBy (a :: as)) : (h.update a none).CoveredBy as where
  nodup := (List.nodup_cons.1 hc.nodup).2
  mem b hb := by
    by_cases hab : b = a
    · subst hab
      simp at hb
    · rw [update_other h _ hab] at hb
      exact (List.mem_cons.1 (hc.mem b hb)).resolve_left hab
  fresh b hb := hc.fresh b (List.mem_cons_of_mem _ hb)

theorem Owns.live (ho : h.Owns as) (a : Nat) : (h.get a).isSome = true ↔ a ∈ as := ⟨ho.mem a, ho.held a⟩

theorem covered_empty : (empty : Heap α).CoveredBy [] := ⟨List.nodup_nil, nofun, nofun⟩

theorem owns_empty : (empty : Heap α).Owns [] := ⟨covered_empty, nofun⟩

theorem Owns.perm (ho : h.Owns as) (hp : as.Perm as') : h.Owns as' :=
  ⟨ho.toCoveredBy.perm hp, fun a ha => ho.held a (hp.mem_iff.2 ha)⟩

theorem Owns.get (ho : h.Owns as) (ha : a ∈ as) : ∃ x, h.get a = some x :=
  Option.isSome_iff_exists.1 (ho.held a ha)

theorem Owns.alloc (ho : h.Owns as) (x : α) : (h.alloc x).1.Owns (h.next :: as) where
  toCoveredBy := ho.toCoveredBy.alloc x
  held a ha := by
    rcases List.mem_cons.1 ha with rfl | hmem
    · simp [Heap.alloc]
    · have hne : a ≠ h.next := fun he => ho.next_notMem (he ▸ hmem)
      simp [Heap.alloc, update_other h _ hne, ho.held a hmem]

theorem Owns.update (ho : h.Owns as) (ha : a ∈ as) (x : α) : (h.update a (some x)).Owns as where
  toCoveredBy := ho.toCoveredBy.update ha (some x)
  held b hb := by
    by_cases hab : b = a
    · simp [hab]
    · rw [update_other h _ hab]
      exact ho.held b hb

theorem Owns.free (ho : h.Owns (a :: as)) : (h.update a none).Owns as where
  toCoveredBy := ho.toCoveredBy.free
  held b hb := by
    have hab : b ≠ a := by
      rintro rfl
      exact (List.nodup_cons.1 ho.nodup).1 hb
    rw [update_other h _ hab]
    exact ho.held b (List.mem_cons_of_mem _ hb)

/-- There are no more blocks than addresses that were given out. -/
theorem Owns.length_le (ho : h.Owns as) : as.length ≤ h.next := by
  have hsub : as ⊆ List.range h.next := fun a ha => List.mem_range.2 (ho.fresh a ha)
  have hle := (ho.nodup.subperm hsub).length_le
  rwa [List.length_range] at hle

end

end Heap

/-! ## Linked lists -/

/-- A node and the link to the one behind it. -/
structure Link (α : Type) where
  val : α
  next : Option Nat

/-- The nodes, and the variable that holds the link to the first of them. -/
structure LinkedList (α : Type) where
  heap : Heap (Link α)
  head : Option Nat

namespace LinkedList

def empty : LinkedList α := ⟨.empty, none⟩

def push (l : LinkedList α) (x : α) : LinkedList α :=
  let (heap, a) := l.heap.alloc ⟨x, l.head⟩
  ⟨heap, some a⟩

/-- The node at `a` with another value. -/
def setVal (l : LinkedList α) (a : Nat) (x : α) : Option (LinkedList α) :=
  (l.heap.get a).bind fun n => (l.heap.set a { n with val := x }).map fun heap => { l with heap := heap }

/-- The first node from `p` on whose value is wanted, with at most `fuel` steps. -/
def findFrom (h : Heap (Link α)) (want : α → Bool) : Nat → Option Nat → Option (Option Nat)
  | _, none => some none
  | 0, some _ => none
  | fuel + 1, some a =>
    (h.get a).bind fun n => if want n.val then some (some a) else findFrom h want fuel n.next

/-- More steps than addresses were given out come back to a node, and go on forever. -/
def find (l : LinkedList α) (want : α → Bool) : Option (Option Nat) := findFrom l.heap want l.heap.next l.head

/-- The link at a place: in the variable (`none`), or in the node with that address. -/
def load (l : LinkedList α) : Option Nat → Option (Option Nat)
  | none => some l.head
  | some a => (l.heap.get a).map Link.next

def store (l : LinkedList α) (p : Option Nat) : Option Nat → Option (LinkedList α)
  | none => some { l with head := p }
  | some a =>
    (l.heap.get a).bind fun n => (l.heap.set a { n with next := p }).map fun heap => { l with heap := heap }

/-- A pointer to a link runs from `place` on to the first node that is wanted, and the link
is set to the node behind it. -/
def unlinkFrom (l : LinkedList α) (want : α → Bool) : Nat → Option Nat → Option (LinkedList α × Option Nat)
  | 0, place => (l.load place).bind fun p => if p = none then some (l, none) else none
  | fuel + 1, place =>
    (l.load place).bind fun
      | none => some (l, none)
      | some a =>
        (l.heap.get a).bind fun n =>
          if want n.val then (l.store n.next place).map fun l => (l, some a) else unlinkFrom l want fuel (some a)

def unlink (l : LinkedList α) (want : α → Bool) : Option (LinkedList α × Option Nat) :=
  l.unlinkFrom want l.heap.next none

/-- From `p` the links lead through `cells`, addresses and values, to `q`. -/
def Seg (h : Heap (Link α)) : Option Nat → List (Nat × α) → Option Nat → Prop
  | p, [], q => p = q
  | p, (a, x) :: cells, q => p = some a ∧ ∃ n, h.get a = some ⟨x, n⟩ ∧ Seg h n cells q

/-- The addresses of the nodes. -/
def addrs (cells : List (Nat × α)) : List Nat := cells.map Prod.fst

/-- The list is made of `cells`, and no other node is there. -/
structure Rep (l : LinkedList α) (cells : List (Nat × α)) : Prop where
  seg : Seg l.heap l.head cells none
  owns : l.heap.Owns (addrs cells)

section
variable {h h' : Heap (Link α)} {l l' : LinkedList α} {cells cells' : List (Nat × α)} {p q : Option Nat} {a : Nat}
  {x y : α} {want : α → Bool}

theorem rep_empty : (empty : LinkedList α).Rep [] := ⟨rfl, Heap.owns_empty⟩

theorem seg_append : Seg h p (cells ++ cells') q ↔ ∃ r, Seg h p cells r ∧ Seg h r cells' q := by
  induction cells generalizing p with
  | nil => simp [Seg]
  | cons c cells ih =>
    obtain ⟨a, x⟩ := c
    rw [List.cons_append]
    simp only [Seg, ih]
    constructor
    · rintro ⟨rfl, n, hn, r, hr, hr'⟩
      exact ⟨r, ⟨rfl, n, hn, hr⟩, hr'⟩
    · rintro ⟨r, ⟨rfl, n, hn, hr⟩, hr'⟩
      exact ⟨rfl, n, hn, r, hr, hr'⟩

/-- A segment is where it was if none of its nodes was touched. -/
theorem Seg.frame (hs : Seg h p cells q) (hsame : ∀ b ∈ addrs cells, h'.get b = h.get b) : Seg h' p cells q := by
  induction cells generalizing p with
  | nil => exact hs
  | cons c cells ih =>
    obtain ⟨a, x⟩ := c
    obtain ⟨rfl, n, hn, hrest⟩ := hs
    refine ⟨rfl, n, ?_, ih hrest fun b hb => hsame b (List.mem_cons_of_mem _ hb)⟩
    rw [hsame a List.mem_cons_self, hn]

theorem Rep.push (hr : l.Rep cells) (x : α) : (l.push x).Rep ((l.heap.next, x) :: cells) where
  seg := by
    refine ⟨rfl, l.head, Heap.update_self .., hr.seg.frame fun b hb => Heap.update_other _ _ ?_⟩
    rintro rfl
    exact hr.owns.next_notMem hb
  owns := hr.owns.alloc _

/-- One node of the list, with what is before and behind it. -/
theorem Rep.split (hr : l.Rep (cells ++ (a, x) :: cells')) :
    ∃ n, l.heap.get a = some ⟨x, n⟩ ∧ Seg l.heap l.head cells (some a) ∧ Seg l.heap n cells' none ∧
      a ∉ addrs cells ∧ a ∉ addrs cells' := by
  obtain ⟨r, hpre, rfl, n, hn, hpost⟩ := seg_append.1 hr.seg
  have hnodup := hr.owns.nodup
  rw [addrs, List.map_append, List.map_cons] at hnodup
  have hmid := List.nodup_middle.1 hnodup
  rw [List.nodup_cons, List.mem_append, not_or] at hmid
  exact ⟨n, hn, hpre, hpost, hmid.1.1, hmid.1.2⟩

theorem Rep.setVal (hr : l.Rep (cells ++ (a, x) :: cells')) (y : α) :
    ∃ l', l.setVal a y = some l' ∧ l'.Rep (cells ++ (a, y) :: cells') := by
  obtain ⟨n, hn, hpre, hpost, hapre, hapost⟩ := hr.split
  have hother : ∀ b, b ≠ a → (l.heap.update a (some ⟨y, n⟩)).get b = l.heap.get b :=
    fun b hb => Heap.update_other _ _ hb
  refine ⟨⟨l.heap.update a (some ⟨y, n⟩), l.head⟩, ?_, ?_, ?_⟩
  · rw [LinkedList.setVal, hn, Option.bind_some, Heap.set_eq (by rw [hn]; rfl)]
    rfl
  · refine seg_append.2 ⟨some a, hpre.frame fun b hb => hother b ?_, rfl, n, Heap.update_self .., ?_⟩
    · rintro rfl
      exact hapre hb
    · refine hpost.frame fun b hb => hother b ?_
      rintro rfl
      exact hapost hb
  · have howns := hr.owns.update (a := a) (by simp [addrs]) ⟨y, n⟩
    simpa [addrs] using howns

/-! ### The loops -/

theorem findFrom_spec {fuel : Nat} (hs : Seg h p cells none) (hfuel : cells.length ≤ fuel) :
    findFrom h want fuel p = some ((cells.find? fun c => want c.2).map Prod.fst) := by
  induction cells generalizing p fuel with
  | nil =>
    obtain rfl : p = none := hs
    cases fuel <;> rfl
  | cons c cells ih =>
    obtain ⟨a, x⟩ := c
    obtain ⟨rfl, n, hn, hrest⟩ := hs
    obtain ⟨fuel, rfl⟩ : ∃ k, fuel = k + 1 := ⟨fuel - 1, by rw [List.length_cons] at hfuel; omega⟩
    rw [findFrom, hn, Option.bind_some, List.find?_cons]
    dsimp only
    cases want x with
    | true => rfl
    | false => exact ih hrest (by rw [List.length_cons] at hfuel; omega)

theorem Rep.find (hr : l.Rep cells) (want : α → Bool) :
    l.find want = some ((cells.find? fun c => want c.2).map Prod.fst) := by
  refine findFrom_spec hr.seg ?_
  have hle := hr.owns.length_le
  rwa [addrs, List.length_map] at hle

/-- A place leads to `p` if the link there is `p`. -/
theorem Rep.load_last (hr : l.Rep (cells ++ cells')) :
    l.load (cells.getLast?.map Prod.fst) = some (cells'.head?.map Prod.fst) := by
  have hhead : ∀ {p}, Seg l.heap p cells' none → p = cells'.head?.map Prod.fst := by
    intro p hp
    cases cells' with
    | nil => exact hp
    | cons c cells' => exact hp.1
  rcases List.eq_nil_or_concat' cells with rfl | ⟨cells, ⟨a, x⟩, rfl⟩
  · rw [← hhead hr.seg]
    rfl
  · rw [List.append_assoc, List.singleton_append] at hr
    obtain ⟨n, hn, -, hpost, -⟩ := hr.split
    rw [List.getLast?_concat, Option.map_some, load, hn, ← hhead hpost]
    rfl

/-- The link that leads to a node can be set to what is behind it. -/
theorem Rep.store_last {n : Option Nat} (hr : l.Rep (cells ++ (a, x) :: cells')) (hn : l.heap.get a = some ⟨x, n⟩) :
    ∃ l', l.store n (cells.getLast?.map Prod.fst) = some l' ∧ Seg l'.heap l'.head (cells ++ cells') none ∧
      l'.heap.get a = some ⟨x, n⟩ ∧ l'.heap.Owns (a :: addrs (cells ++ cells')) := by
  have hperm : (addrs (cells ++ (a, x) :: cells')).Perm (a :: addrs (cells ++ cells')) := by
    simp only [addrs, List.map_append, List.map_cons]
    exact List.perm_middle
  obtain ⟨n', hn', hpre, hpost, hapre, hapost⟩ := hr.split
  cases hn.symm.trans hn'
  rcases List.eq_nil_or_concat' cells with rfl | ⟨cells, ⟨b, y⟩, rfl⟩
  · exact ⟨⟨l.heap, n⟩, rfl, hpost, hn, hr.owns.perm hperm⟩
  · rw [List.append_assoc, List.singleton_append] at hr
    obtain ⟨m, hm, hpre', -, hbpre, hbpost⟩ := hr.split
    have hba : b ≠ a := by
      rintro rfl
      exact hbpost (by simp [addrs])
    have hother : ∀ c, c ≠ b → (l.heap.update b (some ⟨y, n⟩)).get c = l.heap.get c :=
      fun c hc => Heap.update_other _ _ hc
    refine ⟨⟨l.heap.update b (some ⟨y, n⟩), l.head⟩, ?_, ?_, ?_, ?_⟩
    · rw [List.getLast?_concat, Option.map_some, store, hm, Option.bind_some, Heap.set_eq (by rw [hm]; rfl)]
      rfl
    · rw [List.append_assoc, List.singleton_append]
      refine seg_append.2 ⟨some b, hpre'.frame fun c hc => hother c ?_, rfl, n, Heap.update_self .., ?_⟩
      · rintro rfl
        exact hbpre hc
      · refine hpost.frame fun c hc => hother c ?_
        rintro rfl
        exact hbpost (List.mem_cons_of_mem _ hc)
    · rw [← hn]
      exact hother a hba.symm
    · rw [← List.singleton_append, ← List.append_assoc] at hr
      refine (hr.owns.perm hperm).update ?_ _
      simp [addrs]

theorem unlinkFrom_spec (want : α → Bool) {fuel : Nat} (hr : l.Rep (cells ++ cells')) (hfuel : cells'.length ≤ fuel) :
    match cells'.find? fun c => want c.2 with
    | none => l.unlinkFrom want fuel (cells.getLast?.map Prod.fst) = some (l, none)
    | some (a, x) => ∃ l' n, l.unlinkFrom want fuel (cells.getLast?.map Prod.fst) = some (l', some a) ∧
        Seg l'.heap l'.head (cells ++ cells'.eraseP fun c => want c.2) none ∧ l'.heap.get a = some ⟨x, n⟩ ∧
          l'.heap.Owns (a :: addrs (cells ++ cells'.eraseP fun c => want c.2)) := by
  induction cells' generalizing cells fuel with
  | nil =>
    have hload := hr.load_last
    cases fuel with
    | zero => rw [List.find?_nil]; simp [unlinkFrom, hload]
    | succ fuel => rw [List.find?_nil]; simp [unlinkFrom, hload]
  | cons c cells' ih =>
    obtain ⟨a, x⟩ := c
    obtain ⟨fuel, rfl⟩ : ∃ k, fuel = k + 1 := ⟨fuel - 1, by rw [List.length_cons] at hfuel; omega⟩
    have hload := hr.load_last
    obtain ⟨n, hn, -⟩ := hr.split
    have hstep : l.unlinkFrom want (fuel + 1) (cells.getLast?.map Prod.fst) =
        if want x then (l.store n (cells.getLast?.map Prod.fst)).map fun l => (l, some a)
        else l.unlinkFrom want fuel (some a) := by
      rw [unlinkFrom, hload, Option.bind_some]
      dsimp only [List.head?_cons, Option.map_some]
      rw [hn, Option.bind_some]
    rw [hstep, List.find?_cons]
    cases hwant : want x with
    | true =>
      obtain ⟨l', hstore, hseg, hget, howns⟩ := hr.store_last hn
      have herase : ((a, x) :: cells').eraseP (fun c => want c.2) = cells' := List.eraseP_cons_of_pos hwant
      dsimp only
      rw [herase, if_pos rfl, hstore]
      exact ⟨l', n, rfl, hseg, hget, howns⟩
    | false =>
      have hnext : some a = (cells ++ [(a, x)]).getLast?.map Prod.fst := by rw [List.getLast?_concat]; rfl
      have herase : ((a, x) :: cells').eraseP (fun c => want c.2) = (a, x) :: cells'.eraseP fun c => want c.2 :=
        List.eraseP_cons_of_neg (by simp [hwant])
      dsimp only
      rw [herase, if_neg Bool.false_ne_true]
      rw [← List.singleton_append, ← List.append_assoc] at hr
      have hlen : cells'.length ≤ fuel := by
        rw [List.length_cons] at hfuel
        omega
      have hrest := ih hr hlen
      rw [← hnext, List.append_assoc, List.singleton_append] at hrest
      exact hrest

/-- The pointer to a link takes out the first node that is wanted, and leaves it to be freed. -/
theorem Rep.unlink (hr : l.Rep cells) (want : α → Bool) :
    match cells.find? fun c => want c.2 with
    | none => l.unlink want = some (l, none)
    | some (a, x) => ∃ l' n heap, l.unlink want = some (l', some a) ∧ l'.heap.get a = some ⟨x, n⟩ ∧
        l'.heap.free a = some heap ∧ (⟨heap, l'.head⟩ : LinkedList α).Rep (cells.eraseP fun c => want c.2) := by
  have hfuel := hr.owns.length_le
  rw [addrs, List.length_map] at hfuel
  have hspec := unlinkFrom_spec want (show l.Rep ([] ++ cells) from hr) hfuel
  simp only [List.nil_append] at hspec
  cases hfind : cells.find? fun c => want c.2 with
  | none =>
    rw [hfind] at hspec
    exact hspec
  | some c =>
    obtain ⟨a, x⟩ := c
    rw [hfind] at hspec
    obtain ⟨l', n, hrun, hseg, hget, howns⟩ := hspec
    refine ⟨l', n, l'.heap.update a none, hrun, hget, Heap.free_eq (by rw [hget]; rfl), ?_, howns.free⟩
    refine hseg.frame fun b hb => Heap.update_other _ _ ?_
    rintro rfl
    exact (List.nodup_cons.1 howns.nodup).1 hb

end

end LinkedList

end Lib
