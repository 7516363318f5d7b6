import XDevice.Storage.RaftStorage
import XDevice.Storage.MockRefinement
/-!
# Which value a load returns

A save writes at the start of its key's file and never cuts the file short, so a
file holds all the values saved there, each written over the start of the ones
before. A load sees the last value alone just when nothing of the others shows
behind it.
-/
open Lib

namespace XDevice

/-- A manager with one registered backend: a Mock backend, at `ptr`. -/
structure OnlyMock (w : StorageWorld (Option MockStoragePrivate)) (ptr : Nat) (priv : MockStoragePrivate) : Prop where
  slots : w.slots = [some ptr]
  backend : w.heap ptr = { createMockStorageInterface with privateData := some priv }

/-! ## Calls reach the one backend -/

section
variable {w : StorageWorld (Option MockStoragePrivate)} {ptr : Nat} {priv : MockStoragePrivate}

/-- Whatever the policy, it is the one backend that is selected. -/
theorem OnlyMock.selectBackend (h : OnlyMock w ptr priv) : selectBackend w = some (some ptr) := by
  have hcount : w.manager.backendCount ≠ 0 := by
    intro h0
    have := h.slots
    simp [StorageWorld.slots, h0] at this
  have hhealthy : (w.heap ptr).healthy = true := by rw [h.backend]; rfl
  have hfirst : ∀ wanted, w.firstHealthy wanted w.slots =
      if wanted (w.heap ptr).type then some (some ptr) else some none := by
    intro wanted
    simp [h.slots, StorageWorld.firstHealthy, hhealthy]
  unfold XDevice.selectBackend
  simp only [if_neg hcount, hfirst]
  cases decide ((w.heap ptr).type = w.manager.routingPolicy.primaryBackend) <;>
    cases decide ((w.heap ptr).type = w.manager.routingPolicy.fallbackBackend) <;>
    cases w.manager.routingPolicy.autoFailover <;> rfl

theorem OnlyMock.step (h : OnlyMock w ptr priv) (priv' : MockStoragePrivate) (isRead : Bool) (n l : Nat)
    (c : XdeviceError) : OnlyMock (updateStats (w.setData ptr (some priv')) isRead n l c) ptr priv' where
  slots := h.slots
  backend := by simp [updateStats, StorageWorld.withStats, StorageWorld.setData, h.backend]

theorem OnlyMock.write (h : OnlyMock w ptr priv) {env : CallEnv} {p : CString} {d : Bytes} (hd : d.length ≠ 0)
    {priv' : MockStoragePrivate} {r : StorageReply}
    (hw : mockStorageWriteSync env priv p 0 d = some (priv', r)) :
    ∃ w', storageManagerWrite w env p 0 d = some (w', r) ∧ OnlyMock w' ptr priv' := by
  refine ⟨_, ?_, h.step priv' false d.length env.latencyNs r.code⟩
  simp [storageManagerWrite, hd, h.selectBackend, h.backend, createMockStorageInterface, onLive, hw]

theorem OnlyMock.read (h : OnlyMock w ptr priv) {env : CallEnv} {p : CString} {n : Nat} (hn : n ≠ 0)
    {priv' : MockStoragePrivate} {r : StorageReply}
    (hr : mockStorageReadSync env priv p 0 n = some (priv', r)) :
    ∃ w', storageManagerRead w env p 0 n = some (w', r) := by
  refine ⟨updateStats (w.setData ptr (some priv')) true n env.latencyNs r.code, ?_⟩
  simp only [storageManagerRead, if_neg hn, h.selectBackend, h.backend, createMockStorageInterface, onLive, hr,
    Option.bind_some, Option.map_some]

end

/-! ## One save -/

/-- A save within the limits: memory is there, the path is not cut short, the
value is not empty and no larger than a file may be. -/
structure Fits (adapter : RaftStorageAdapter) (s : RaftSave) : Prop where
  alloc : s.env.AllocOk
  path : (adapter.pathText s.key).length < maxPathLen
  value : 0 < s.value.length
  size : s.value.length ≤ mockStorageInit.maxFileSize

/-- What a save does to the files: it writes over its key's file, made if need
be, or finds no room for a new one. -/
inductive SavedTo (path : CString) (value : Bytes) (priv priv' : MockStoragePrivate) : Prop where
  | written (hroom : mockMap priv path ≠ none ∨ priv.fileCount < priv.maxFiles)
      (hmap : mockMap priv' = (mockMap priv).set path (some (writeAt 0 ((mockMap priv path).getD []) 0 value)))
      (hcount : priv'.fileCount = if mockMap priv path = none then priv.fileCount + 1 else priv.fileCount)
  | full (hpath : mockMap priv path = none) (hroom : priv.maxFiles ≤ priv.fileCount) (hsame : priv' = priv)

section
variable {w : StorageWorld (Option MockStoragePrivate)} {ptr : Nat} {priv : MockStoragePrivate}
  {adapter : RaftStorageAdapter}

theorem save_spec (hw : OnlyMock w ptr priv) (hok : MockOk priv) (hh : Healthy priv) {s : RaftSave}
    (hs : Fits adapter s) :
    ∃ w' r priv', adapter.save w s = some (w', r) ∧ OnlyMock w' ptr priv' ∧ MockOk priv' ∧ Healthy priv' ∧
      SavedTo (adapter.path s.key) s.value priv priv' := by
  have hv : s.value.length ≠ 0 := Nat.ne_of_gt hs.value
  have href : MockRefines (mockMap priv) priv := ⟨hok, hh, rfl⟩
  rw [save_eq adapter w s hv]
  by_cases hfull : mockMap priv (adapter.path s.key) = none ∧ priv.maxFiles ≤ priv.fileCount
  · have hcall : mockStorageWriteSync s.env priv (adapter.path s.key) 0 s.value = _ :=
      mock_write_full href hv hfull.1 (by rw [hok.fileCount, ← hh.maxFiles]; exact hfull.2)
    obtain ⟨w', h1, h2⟩ := hw.write hv hcall
    exact ⟨w', _, priv, h1, h2, hok, hh, .full hfull.1 hfull.2 rfl⟩
  · have hin : Within (mockMap priv) (s.env, .writeSync (adapter.path s.key) 0 s.value) := by
      refine ⟨hs.alloc, ?_, ?_, fun _ hnew => ?_⟩
      · simp only [StorageOp.path, RaftStorageAdapter.path, snprintf_eq hs.path]
        exact hs.path
      · simpa [StorageOp.extent] using hs.size
      · rw [hok.fileCount, ← hh.maxFiles]
        exact Nat.lt_of_not_le fun h => hfull ⟨hnew, h⟩
    obtain ⟨priv', hcall, href'⟩ := mock_write href hin
    obtain ⟨w', h1, h2⟩ := hw.write hv hcall
    have hmap : mockMap priv' = (mockMap priv).set (adapter.path s.key)
        (some (writeAt 0 ((mockMap priv (adapter.path s.key)).getD []) 0 s.value)) := by
      rw [href'.map, FileMap.writeSync, if_neg hv]
    refine ⟨w', _, priv', h1, h2, href'.ok, href'.healthy, .written ?_ hmap ?_⟩
    · by_cases hp : mockMap priv (adapter.path s.key) = none
      · exact .inr (Nat.lt_of_not_le fun h => hfull ⟨hp, h⟩)
      · exact .inl hp
    · rw [← href'.ok.fileCount, hmap, FileMap.fileCount_set (mockMap_paths priv ▸ Finset.finite_toSet _), hok.fileCount]

end

/-! ## A history of saves -/

/-- The values saved under `key`, the last one first. -/
def savedUnder (saves : List RaftSave) (key : RaftKey) : List Bytes :=
  ((saves.filter fun s => s.key = key).map RaftSave.value).reverse

section
variable (adapter : RaftStorageAdapter) (priv : MockStoragePrivate) (saves : List RaftSave) (key : RaftKey)

/-- All that is written to the file of `key`: the saved values, and what was
there before them. -/
def layers : List Bytes := savedUnder saves key ++ (mockMap priv (adapter.path key)).toList

/-- The keys that are new to the backend and saved before `key` is. -/
def newKeys : Finset RaftKey :=
  ((saves.map RaftSave.key).takeWhile (· ≠ key)).toFinset.filter fun k => mockMap priv (adapter.path k) = none

/-- `key` has a file, or there is room for one when it is first saved. -/
def Room : Prop :=
  mockMap priv (adapter.path key) ≠ none ∨ priv.fileCount + (newKeys adapter priv saves key).card < priv.maxFiles

end

theorem savedUnder_cons (s : RaftSave) (saves : List RaftSave) (key : RaftKey) :
    savedUnder (s :: saves) key = savedUnder saves key ++ if s.key = key then [s.value] else [] := by
  by_cases h : s.key = key <;> simp [savedUnder, h]

section
variable {adapter : RaftStorageAdapter} {priv priv' : MockStoragePrivate} {saves : List RaftSave} {s : RaftSave}
  {key : RaftKey}

theorem newKeys_cons_self (h : s.key = key) : newKeys adapter priv (s :: saves) key = ∅ := by
  simp [newKeys, h]

theorem newKeys_cons (h : s.key ≠ key) :
    newKeys adapter priv (s :: saves) key =
      (insert s.key ((saves.map RaftSave.key).takeWhile (· ≠ key)).toFinset).filter
        fun k => mockMap priv (adapter.path k) = none := by
  simp [newKeys, h]

/-- A save of another key takes that key out of the new ones, if it was one. -/
theorem card_newKeys_written {value : Bytes} (hne : s.key ≠ key)
    (hinj : ∀ s' ∈ saves, adapter.path s'.key = adapter.path s.key → s'.key = s.key)
    (hmap : mockMap priv' = (mockMap priv).set (adapter.path s.key) (some value)) :
    (newKeys adapter priv (s :: saves) key).card =
      (newKeys adapter priv' saves key).card + if mockMap priv (adapter.path s.key) = none then 1 else 0 := by
  have hkeys : ∀ k ∈ ((saves.map RaftSave.key).takeWhile (· ≠ key)).toFinset,
      adapter.path k = adapter.path s.key → k = s.key := by
    intro k hk
    obtain ⟨s', hs', rfl⟩ := List.mem_map.1 ((List.takeWhile_sublist _).mem (List.mem_toFinset.1 hk))
    exact hinj s' hs'
  have hself : s.key ∉ newKeys adapter priv' saves key := by simp [newKeys, hmap]
  rw [newKeys_cons hne, Finset.filter_insert]
  split
  · rename_i hnew
    rw [← Finset.card_insert_of_notMem hself]
    congr 1
    ext k
    simp only [newKeys, Finset.mem_insert, Finset.mem_filter, hmap, FileMap.set]
    refine or_congr_right' fun hk => and_congr_right fun hmem => ?_
    rw [if_neg fun hp => hk (hkeys k hmem hp)]
  · rename_i hold
    rw [Nat.add_zero]
    congr 1
    ext k
    simp only [newKeys, Finset.mem_filter, hmap, FileMap.set]
    refine and_congr_right fun hmem => ?_
    split
    · rename_i hp
      simp [hp, hold]
    · rfl

/-- A save keeps whether there is room for `key`, and, if there is, what its
file will show. -/
theorem SavedTo.room_layers (h : SavedTo (adapter.path s.key) s.value priv priv')
    (hmax : priv'.maxFiles = priv.maxFiles)
    (hinj : ∀ s' ∈ saves, adapter.path s'.key = adapter.path s.key → s'.key = s.key)
    (hkey : adapter.path key = adapter.path s.key → s.key = key) :
    (Room adapter priv (s :: saves) key ↔ Room adapter priv' saves key) ∧
    (Room adapter priv (s :: saves) key →
      overlay 0 (layers adapter priv (s :: saves) key) = overlay 0 (layers adapter priv' saves key) ∧
      (layers adapter priv (s :: saves) key ≠ [] → layers adapter priv' saves key ≠ [])) := by
  by_cases hk : s.key = key
  · subst hk
    cases h with
    | written hroom hmap _ =>
      have hnow : mockMap priv' (adapter.path s.key) =
          some (writeAt 0 ((mockMap priv (adapter.path s.key)).getD []) 0 s.value) := by rw [hmap, FileMap.set_self]
      refine ⟨?_, fun _ => ⟨?_, fun _ => by simp [layers, hnow]⟩⟩
      · simpa [Room, newKeys_cons_self rfl, hnow] using hroom
      · -- the value over what was there is what is there now
        simp only [layers, savedUnder_cons, if_true, hnow, List.append_assoc, Option.toList_some]
        refine overlay_append 0 _ ?_
        rw [overlay_singleton, List.singleton_append, overlay_cons]
        cases mockMap priv (adapter.path s.key) with
        | none => rfl
        | some c => rw [Option.toList_some, overlay_singleton, Option.getD_some]
    | full hpath hroom hsame =>
      subst hsame
      have hno : ∀ saves, ¬ Room adapter priv' saves s.key := by
        rintro saves (h | h)
        · exact h hpath
        · omega
      exact ⟨iff_of_false (hno _) (hno _), fun h => absurd h (hno _)⟩
  · have hlayers : mockMap priv' (adapter.path key) = mockMap priv (adapter.path key) →
        layers adapter priv (s :: saves) key = layers adapter priv' saves key := by
      intro he
      rw [layers, layers, savedUnder_cons, if_neg hk, List.append_nil, he]
    cases h with
    | written hroom hmap hcount =>
      have hsame : mockMap priv' (adapter.path key) = mockMap priv (adapter.path key) := by
        rw [hmap, FileMap.set_other _ _ fun h => hk (hkey h)]
      refine ⟨?_, fun _ => by rw [hlayers hsame]; exact ⟨rfl, id⟩⟩
      have hcard := card_newKeys_written hk hinj hmap
      simp only [Room, hsame, hmax, hcard, hcount]
      refine or_congr Iff.rfl ?_
      split <;> omega
    | full hpath hroom hsame =>
      subst hsame
      refine ⟨or_congr Iff.rfl ?_, fun _ => by rw [hlayers rfl]; exact ⟨rfl, id⟩⟩
      omega

end

/-! ## All saves -/

section
variable {w : StorageWorld (Option MockStoragePrivate)} {ptr : Nat} {priv : MockStoragePrivate}
  {devicePrefix : CString} {saves : List RaftSave}

/-- After any history of saves the file of a key there was room for holds its
layers, and there is no other. -/
theorem saves_spec (hw : OnlyMock w ptr priv) (hok : MockOk priv) (hh : Healthy priv)
    (hfits : ∀ s ∈ saves, Fits (raftStorageAdapterInit devicePrefix) s) :
    ∃ w' replies priv', (raftStorageAdapterInit devicePrefix).saveMachine.run w saves = some (w', replies) ∧
      OnlyMock w' ptr priv' ∧ MockOk priv' ∧ Healthy priv' ∧
      ∀ key, ((raftStorageAdapterInit devicePrefix).pathText key).length < maxPathLen →
        (Room (raftStorageAdapterInit devicePrefix) priv saves key →
          layers (raftStorageAdapterInit devicePrefix) priv saves key ≠ [] →
          mockMap priv' ((raftStorageAdapterInit devicePrefix).path key) =
            some (overlay 0 (layers (raftStorageAdapterInit devicePrefix) priv saves key))) ∧
        (¬ Room (raftStorageAdapterInit devicePrefix) priv saves key →
          mockMap priv' ((raftStorageAdapterInit devicePrefix).path key) = none) := by
  induction saves generalizing w priv with
  | nil =>
    refine ⟨w, [], priv, rfl, hw, hok, hh, fun key _ => ⟨fun _ hne => ?_, fun hno => ?_⟩⟩
    · simp only [layers, savedUnder, List.filter_nil, List.map_nil, List.reverse_nil, List.nil_append] at hne ⊢
      cases hm : mockMap priv ((raftStorageAdapterInit devicePrefix).path key) with
      | none => simp [hm] at hne
      | some c => rw [Option.toList_some, overlay_singleton]
    · by_contra hc
      exact hno (.inl hc)
  | cons s saves ih =>
    have hs := hfits s List.mem_cons_self
    have hrest : ∀ s' ∈ saves, Fits (raftStorageAdapterInit devicePrefix) s' :=
      fun s' h => hfits s' (List.mem_cons_of_mem _ h)
    obtain ⟨w1, r, priv1, hstep, hw1, hok1, hh1, hsaved⟩ := save_spec hw hok hh hs
    obtain ⟨w', replies, priv', hrun, hw', hok', hh', hfinal⟩ := ih hw1 hok1 hh1 hrest
    refine ⟨w', r :: replies, priv', Machine.run_cons_eq_some.2 ⟨w1, r, replies, hstep, hrun, rfl⟩, hw', hok', hh', ?_⟩
    intro key hkey
    obtain ⟨hroom, hlayers⟩ := hsaved.room_layers (hh1.maxFiles.trans hh.maxFiles.symm)
      (fun s' h hp => path_inj (hrest s' h).path hs.path hp) (fun hp => (path_inj hkey hs.path hp).symm)
    refine ⟨fun h hne => ?_, fun h => (hfinal key hkey).2 fun h' => h (hroom.2 h')⟩
    rw [(hlayers h).1, (hfinal key hkey).1 (hroom.1 h) ((hlayers h).2 hne)]

/-! ## Main theorem -/

/-- After any history of saves, the loads of a saved key answer `XDEVICE_OK` with
its last value and zeros behind it, just when there was room for the key and all
that was ever longer in its file has zeros beyond the last value. -/
theorem load_last_value_iff (hw : OnlyMock w ptr priv) (hok : MockOk priv) (hh : Healthy priv)
    (hfits : ∀ s ∈ saves, Fits (raftStorageAdapterInit devicePrefix) s)
    {key : RaftKey} {value : Bytes} {older : List Bytes} (hlast : savedUnder saves key = value :: older) :
    ∃ w' replies, (raftStorageAdapterInit devicePrefix).saveMachine.run w saves = some (w', replies) ∧
      ((∀ env size, 0 < size → size < 2 ^ 64 → ∃ w'',
          (raftStorageAdapterInit devicePrefix).load w' env key size =
            some (w'', ⟨.ok, readAt 0 value 0 size, 0⟩)) ↔
        Room (raftStorageAdapterInit devicePrefix) priv saves key ∧
          ∀ i, value.length ≤ i →
            topmost 0 (older ++ (mockMap priv ((raftStorageAdapterInit devicePrefix).path key)).toList) i = 0) := by
  obtain ⟨w', replies, priv', hrun, hw', hok', hh', hfinal⟩ := saves_spec hw hok hh hfits
  refine ⟨w', replies, hrun, ?_⟩
  have hsaved : ∃ s ∈ saves, s.key = key ∧ s.value = value := by
    have hmem : value ∈ savedUnder saves key := hlast ▸ List.mem_cons_self
    simpa [savedUnder, and_assoc] using hmem
  obtain ⟨s, hs, rfl, rfl⟩ := hsaved
  obtain ⟨hyes, hno⟩ := hfinal s.key (hfits s hs).path
  have hlayers : layers (raftStorageAdapterInit devicePrefix) priv saves s.key = s.value ::
      (older ++ (mockMap priv ((raftStorageAdapterInit devicePrefix).path s.key)).toList) := by
    rw [layers, hlast, List.cons_append]
  rw [hlayers] at hyes
  -- a load answers as the map of the files does
  have hload : ∀ env size reply, 0 < size → size < 2 ^ 64 →
      ((∃ w'', (raftStorageAdapterInit devicePrefix).load w' env s.key size = some (w'', reply)) ↔
        (mockMap priv').readSync ((raftStorageAdapterInit devicePrefix).path s.key) 0 size = reply) := by
    intro env size reply h0 h64
    have href : MockRefines (mockMap priv') priv' := ⟨hok', hh', rfl⟩
    obtain ⟨priv'', hcall, -⟩ := mock_read href (show 0 + size < 2 ^ 64 by omega)
    obtain ⟨w'', hw''⟩ := hw'.read (Nat.ne_of_gt h0) hcall
    rw [load_eq, hw'']
    simp
  by_cases hroom : Room (raftStorageAdapterInit devicePrefix) priv saves s.key
  · have hfile := hyes hroom (by simp)
    have hlen : 0 < (overlay 0 (s.value ::
        (older ++ (mockMap priv ((raftStorageAdapterInit devicePrefix).path s.key)).toList))).length := by
      rw [overlay_cons, length_writeAt]
      have := (hfits s hs).value
      omega
    have hmax := mockMap_length hok' hfile
    rw [hh'.maxFileSize, show mockStorageInit.maxFileSize = 2 ^ 30 from rfl] at hmax
    rw [← readAt_overlay_iff 0 (Nat.lt_of_le_of_lt hmax (show 2 ^ 30 < 2 ^ 64 by omega))]
    simp only [hroom, true_and]
    constructor
    · intro h size h0 h64
      have := (hload .calm size _ h0 h64).1 (h .calm size h0 h64)
      simp only [FileMap.readSync, hfile, if_neg (Nat.ne_of_gt h0), if_pos hlen] at this
      exact congrArg StorageReply.data this
    · intro h env size h0 h64
      rw [hload env size _ h0 h64, ← h size h0 h64]
      simp only [FileMap.readSync, hfile, if_neg (Nat.ne_of_gt h0), if_pos hlen]
  · refine iff_of_false (fun h => ?_) fun h => hroom h.1
    have := (hload .calm 1 _ (by omega) (by omega)).1 (h .calm 1 (by omega) (by omega))
    simp [FileMap.readSync, hno hroom, StorageReply.ofCode] at this

end

/-- A manager with a fresh Mock backend. -/
def oneMock : StorageWorld (Option MockStoragePrivate) where
  manager := { storageManagerInit with backends := storageManagerInit.backends.set 0 (some 0), backendCount := 1 }
  heap _ := createMockStorageInterface

theorem oneMock_only : OnlyMock oneMock 0 mockStorageInit := ⟨rfl, rfl⟩

/-- Two values for one state key. -/
def twoVotes (first second : String) : List RaftSave :=
  [⟨.calm, .state (cstr "voted_for"), cstr first⟩, ⟨.calm, .state (cstr "voted_for"), cstr second⟩]

theorem twoVotes_fit {first second : String} (h1 : 0 < (cstr first).length ∧ (cstr first).length ≤ 2 ^ 30)
    (h2 : 0 < (cstr second).length ∧ (cstr second).length ≤ 2 ^ 30) :
    ∀ s ∈ twoVotes first second, Fits (raftStorageAdapterInit (cstr "node1_")) s := by
  have hcalm : CallEnv.calm.AllocOk := ⟨rfl, fun _ => rfl⟩
  have hpath : ((raftStorageAdapterInit (cstr "node1_")).pathText (.state (cstr "voted_for"))).length < maxPathLen := by
    decide
  simp only [twoVotes, List.mem_cons, List.not_mem_nil, or_false, forall_eq_or_imp, forall_eq]
  exact ⟨⟨hcalm, hpath, h1.1, h1.2⟩, ⟨hcalm, hpath, h2.1, h2.2⟩⟩

/-- A longer value replaces a shorter one: every load is right. -/
theorem twoVotes_grow : ∃ w' replies,
    (raftStorageAdapterInit (cstr "node1_")).saveMachine.run oneMock (twoVotes "2" "10") = some (w', replies) ∧
    ∀ env size, 0 < size → size < 2 ^ 64 → ∃ w'',
      (raftStorageAdapterInit (cstr "node1_")).load w' env (.state (cstr "voted_for")) size =
        some (w'', ⟨.ok, readAt 0 (cstr "10") 0 size, 0⟩) := by
  have hfit : ∀ s ∈ twoVotes "2" "10", Fits (raftStorageAdapterInit (cstr "node1_")) s :=
    twoVotes_fit (by decide) (by decide)
  have hlast : savedUnder (twoVotes "2" "10") (.state (cstr "voted_for")) = [cstr "10", cstr "2"] := by decide
  obtain ⟨w', replies, hrun, hiff⟩ := load_last_value_iff oneMock_only mockOk_init healthy_init hfit hlast
  refine ⟨w', replies, hrun, hiff.2 ⟨.inr (by decide), fun i hi => ?_⟩⟩
  have hi' : 2 ≤ i := hi
  simp [topmost, mockMap, mockStorageInit, cstr]
  omega

/-- A shorter value replaces a longer one: a load shows the rest of the longer. -/
theorem overwritten_value_shows :
    OnlyMock oneMock 0 mockStorageInit ∧ MockOk mockStorageInit ∧ Healthy mockStorageInit ∧
    (∀ s ∈ twoVotes "10" "2", Fits (raftStorageAdapterInit (cstr "node1_")) s) ∧
    savedUnder (twoVotes "10" "2") (.state (cstr "voted_for")) = [cstr "2", cstr "10"] ∧
    (((raftStorageAdapterInit (cstr "node1_")).saveMachine.run oneMock (twoVotes "10" "2")).bind fun r =>
        (raftStorageAdapterInit (cstr "node1_")).load r.1 .calm (.state (cstr "voted_for")) 4).map (·.2) =
      some ⟨.ok, cstr "20" ++ [0, 0], 0⟩ :=
  ⟨oneMock_only, mockOk_init, healthy_init, twoVotes_fit (by decide) (by decide), by decide, by decide⟩

end XDevice
