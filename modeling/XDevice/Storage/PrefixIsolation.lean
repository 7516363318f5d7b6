import XDevice.Storage.SavedValues
import XDevice.Storage.MockFailures
/-!
# Two adapters on one manager

The path of a value is the device prefix, the prefix of its kind and its key, one behind
the other with nothing between them. Only a state key is free text, so two adapters meet
at a path just when the prefix of one goes on as a state path of the other.
-/
open Lib

namespace XDevice

/-- Whatever is saved through an adapter with prefix `p`, in any environment, the loads
through one with prefix `q` give what they gave before. -/
def Isolated (p q : CString) : Prop :=
  ∀ (w w' : StorageWorld (Option MockStoragePrivate)) (ptr : Nat) (priv : MockStoragePrivate) (saves : List RaftSave)
    (replies : List StorageReply) (env : CallEnv) (key : RaftKey) (size : Nat),
    OnlyMock w ptr priv → (∀ s ∈ saves, ((raftStorageAdapterInit p).pathText s.key).length < maxPathLen) →
    ((raftStorageAdapterInit q).pathText key).length < maxPathLen →
    (raftStorageAdapterInit p).saveMachine.run w saves = some (w', replies) →
    ((raftStorageAdapterInit q).load w' env key size).map Prod.snd =
      ((raftStorageAdapterInit q).load w env key size).map Prod.snd

/-- `q` is `p`, the prefix of the states, and anything behind them. -/
def StatePathOf (p q : CString) : Prop := p ++ cstr "state_" <+: q

instance (p q : CString) : Decidable (StatePathOf p q) := inferInstanceAs (Decidable (_ <+: _))

/-! ## Paths -/

theorem mem_decimal {n : Nat} {b : Byte} (h : b ∈ decimal n) : b.toNat ≤ 57 := by
  obtain ⟨c, hc, rfl⟩ := List.mem_map.1 h
  have hle := toNat_toDigits hc
  rw [Nat.toUInt8_eq, UInt8.toNat_ofNat']
  omega

/-- The letters that the prefixes of the three kinds start with. -/
def IsKindLetter (b : Byte) : Prop := b = 108 ∨ b = 115

instance (b : Byte) : Decidable (IsKindLetter b) := inferInstanceAs (Decidable (_ ∨ _))

theorem text_head (key : RaftKey) : ∃ b t, key.text = b :: t ∧ IsKindLetter b := by
  cases key with
  | log index => exact ⟨_, _, rfl, .inl rfl⟩
  | state key => exact ⟨_, _, rfl, .inr rfl⟩
  | snapshot index => exact ⟨_, _, rfl, .inr rfl⟩

theorem not_isKindLetter_decimal {n : Nat} {b : Byte} (h : b ∈ decimal n) : ¬ IsKindLetter b := by
  have hle := mem_decimal h
  rintro (rfl | rfl)
  · exact absurd hle (by decide)
  · exact absurd hle (by decide)

/-- No kind starts inside the text of another kind, but in the free text of a state key. -/
theorem text_suffix {key key' : RaftKey} {r : CString} (h : key.text = r ++ key'.text) (hr : r ≠ []) : cstr "state_" <+: r := by
  obtain ⟨b, t, htext, hb⟩ := text_head key'
  rw [htext] at h
  cases r with
  | nil => exact absurd rfl hr
  | cons x r =>
    -- the kinds of logs and snapshots go on without a letter that starts a kind
    have hindexed : ∀ (kind : CString) (n : Nat), (∀ b ∈ kind, ¬ IsKindLetter b) → kind ++ decimal n ≠ r ++ b :: t := by
      intro kind n hkind he
      have hmem : b ∈ kind ++ decimal n := by simp [he]
      rcases List.mem_append.1 hmem with hmem | hmem
      · exact hkind b hmem hb
      · exact not_isKindLetter_decimal hmem hb
    cases key with
    | log index => exact absurd (List.cons.inj h).2 (hindexed (cstr "og_") _ (by decide +kernel))
    | snapshot index => exact absurd (List.cons.inj h).2 (hindexed (cstr "nap_") _ (by decide +kernel))
    | state key =>
      obtain ⟨hx, htail⟩ := List.cons.inj h
      subst hx
      have htail : cstr "tate_" ++ key = r ++ b :: t := htail
      rcases List.append_eq_append_iff.1 htail with ⟨rest, rfl, -⟩ | ⟨rest, hkind, hrest⟩
      · exact List.prefix_append (cstr "state_") rest
      · cases rest with
        | nil =>
          rw [List.append_nil] at hkind
          rw [← hkind]
          exact List.prefix_rfl
        | cons y rest =>
          obtain ⟨rfl, -⟩ := List.cons.inj hrest
          have hmem : b ∈ cstr "tate_" := by simp [hkind]
          exact absurd hb ((by decide +kernel : ∀ b ∈ cstr "tate_", ¬ IsKindLetter b) b hmem)

/-- Two different prefixes share no path, unless one is a state path of the other. -/
theorem paths_disjoint {p q : CString} (hne : p ≠ q) (hpq : ¬ StatePathOf p q) (hqp : ¬ StatePathOf q p) (key key' : RaftKey) :
    p ++ key.text ≠ q ++ key'.text := by
  have hstep : ∀ {p q : CString} {key key' : RaftKey} {r : CString}, p ≠ q → q = p ++ r → key.text = r ++ key'.text →
      StatePathOf p q := by
    rintro p q key key' r hne rfl htext
    have hr : r ≠ [] := by
      rintro rfl
      exact hne (List.append_nil p).symm
    exact (List.prefix_append_right_inj p).2 (text_suffix htext hr)
  intro h
  -- the longer prefix goes on with what the shorter one has as a key
  rcases List.append_eq_append_iff.1 h with ⟨r, hq, htext⟩ | ⟨r, hp, htext⟩
  · exact hpq (hstep hne hq htext)
  · exact hqp (hstep hne.symm hp htext)

/-! ## A write is seen at no other path -/

/-- A read of `path` gives the same. -/
structure SameAt (path : CString) (priv priv' : MockStoragePrivate) : Prop where
  file : lookup MockFile.path priv'.files path = lookup MockFile.path priv.files path
  injectReadErrors : priv'.injectReadErrors = priv.injectReadErrors
  errorRatePercent : priv'.errorRatePercent = priv.errorRatePercent

section
variable {env : CallEnv} {priv priv' : MockStoragePrivate} {path other : CString} {reply : StorageReply}

theorem SameAt.refl (path : CString) (priv : MockStoragePrivate) : SameAt path priv priv := ⟨rfl, rfl, rfl⟩

theorem readFile_reply (env : CallEnv) (priv priv' : MockStoragePrivate) (file : MockFile) (offset size : Nat) :
    (readFile env priv file offset size).map Prod.snd = (readFile env priv' file offset size).map Prod.snd := by
  unfold readFile
  split
  · rfl
  · simp only [Option.map_map]
    rfl

theorem SameAt.read (h : SameAt path priv priv') (env : CallEnv) (offset size : Nat) :
    (mockStorageReadSync env priv' path offset size).map Prod.snd =
      (mockStorageReadSync env priv path offset size).map Prod.snd := by
  have hinject : shouldInjectError env priv' = shouldInjectError env priv := by
    rw [shouldInjectError, shouldInjectError, h.errorRatePercent]
  unfold mockStorageReadSync
  rw [h.injectReadErrors, hinject]
  split
  · rfl
  · split
    · rfl
    · cases hfind : findFile priv path with
      | none =>
        have hmissing := (indexOf_eq_none MockFile.path).1 hfind
        rw [← h.file] at hmissing
        have hfind' : findFile priv' path = none := (indexOf_eq_none MockFile.path).2 hmissing
        rw [hfind']
        rfl
      | some i =>
        obtain ⟨file, hget, hlookup⟩ := getElem?_indexOf MockFile.path hfind
        cases hfind' : findFile priv' path with
        | none =>
          have hmissing := (indexOf_eq_none MockFile.path).1 hfind'
          rw [h.file, hlookup] at hmissing
          cases hmissing
        | some j =>
          obtain ⟨file', hget', hlookup'⟩ := getElem?_indexOf MockFile.path hfind'
          rw [h.file, hlookup] at hlookup'
          cases hlookup'
          simp only [hget, hget', Option.bind_some]
          exact readFile_reply ..

/-- A write through a file pointer changes no file at another path. -/
theorem SameAt.writeFile {i : Nat} {file : MockFile} {offset : Nat} {data : Bytes} (hi : findFile priv path = some i)
    (hfile : priv.files[i]? = some file) (hpath : file.path = path) (hne : other ≠ path)
    (h : writeFile env priv i file offset data = some (priv', reply)) :
    SameAt other priv priv' := by
  obtain ⟨file', st, rfl, hsame, -⟩ := writeFile_effect hfile h
  refine ⟨?_, rfl, rfl⟩
  rw [MockStoragePrivate.withStats, MockStoragePrivate.setFile, lookup_set MockFile.path hi (hsame.trans hpath), if_neg hne]

theorem SameAt.write {offset : Nat} {data : Bytes} (hlen : path.length < maxPathLen) (hne : other ≠ path)
    (h : mockStorageWriteSync env priv path offset data = some (priv', reply)) : SameAt other priv priv' := by
  rcases mockWrite_cases h with ⟨-, st, rfl⟩ | ⟨-, -, ⟨i, file, hfind, hget, -, hpath, -, hwrite⟩ | ⟨file, -, hnew, hwrite⟩⟩
  · exact ⟨rfl, rfl, rfl⟩
  · exact SameAt.writeFile hfind hget hpath hne hwrite
  · have hpath : file.path = path := hnew.path.trans (strncpy_eq (by omega))
    have hfind : findFile (priv.link file) path = some 0 := by
      rw [findFile, MockStoragePrivate.link, indexOf_cons, if_pos hpath]
    obtain ⟨hfile, hread, hrate⟩ := SameAt.writeFile hfind rfl hpath hne hwrite
    refine ⟨hfile.trans ?_, hread, hrate⟩
    rw [MockStoragePrivate.link, lookup_cons, hpath, if_neg (Ne.symm hne)]

end

/-! ## Saves and loads -/

section
variable {w w' : StorageWorld (Option MockStoragePrivate)} {ptr : Nat} {priv : MockStoragePrivate} {reply : StorageReply}

/-- A write through the manager is one on the Mock backend. -/
theorem OnlyMock.of_write (h : OnlyMock w ptr priv) {env : CallEnv} {path : CString} {data : Bytes} (hdata : data.length ≠ 0)
    (hw : storageManagerWrite w env path 0 data = some (w', reply)) :
    ∃ priv', mockStorageWriteSync env priv path 0 data = some (priv', reply) ∧ OnlyMock w' ptr priv' := by
  cases hmock : mockStorageWriteSync env priv path 0 data with
  | none =>
    simp [storageManagerWrite, hdata, h.selectBackend, h.backend, createMockStorageInterface, onLive, hmock] at hw
  | some r =>
    obtain ⟨priv', r⟩ := r
    obtain ⟨w1, hw1, honly⟩ := h.write hdata hmock
    obtain ⟨rfl, rfl⟩ := Prod.mk.inj (Option.some.inj (hw.symm.trans hw1))
    exact ⟨priv', rfl, honly⟩

/-- A load gets the answer of the Mock backend. -/
theorem OnlyMock.load_reply (h : OnlyMock w ptr priv) (adapter : RaftStorageAdapter) (env : CallEnv) (key : RaftKey) (size : Nat) :
    (adapter.load w env key size).map Prod.snd = (mockStorageReadSync env priv (adapter.path key) 0 size).map Prod.snd := by
  rw [load_eq, storageManagerRead]
  split
  · rename_i hsize
    rw [mockStorageReadSync, if_pos hsize]
    rfl
  · simp [h.selectBackend, h.backend, createMockStorageInterface, onLive, Function.comp_def]

/-- Saves leave what is kept at a path of their own to themselves. -/
theorem saves_sameAt {adapter : RaftStorageAdapter} {other : CString} {saves : List RaftSave} {replies : List StorageReply}
    (h : OnlyMock w ptr priv) (hfits : ∀ s ∈ saves, (adapter.pathText s.key).length < maxPathLen)
    (hother : ∀ s ∈ saves, other ≠ adapter.path s.key) (hrun : adapter.saveMachine.run w saves = some (w', replies)) :
    ∃ priv', OnlyMock w' ptr priv' ∧ SameAt other priv priv' := by
  induction saves generalizing w priv replies with
  | nil =>
    cases hrun
    exact ⟨priv, h, .refl other priv⟩
  | cons s saves ih =>
    obtain ⟨w1, reply, replies, hsave, hrest, rfl⟩ := Machine.run_cons_eq_some.1 hrun
    have hstep : ∃ priv1, OnlyMock w1 ptr priv1 ∧ SameAt other priv priv1 := by
      by_cases hvalue : s.value.length = 0
      · have hrefused : adapter.save w s = some (w, .ofCode .invalidParam) := by
          cases hkey : s.key <;>
            simp [RaftStorageAdapter.save, hkey, raftStorageAppendLog, raftStorageSaveState, raftStorageSaveSnapshot, raftSave, hvalue]
        obtain ⟨rfl, -⟩ := Prod.mk.inj (Option.some.inj (hrefused.symm.trans hsave))
        exact ⟨priv, h, .refl other priv⟩
      · have hwrite : adapter.save w s = some (w1, reply) := hsave
        rw [save_eq adapter w s hvalue] at hwrite
        obtain ⟨priv1, hmock, honly⟩ := h.of_write hvalue hwrite
        have hlen : (adapter.path s.key).length < maxPathLen := by
          rw [RaftStorageAdapter.path, snprintf_eq (hfits s List.mem_cons_self)]
          exact hfits s List.mem_cons_self
        exact ⟨priv1, honly, .write hlen (hother s List.mem_cons_self) hmock⟩
    obtain ⟨priv1, honly, hsame⟩ := hstep
    obtain ⟨priv', honly', hsame'⟩ := ih honly (fun s' h' => hfits s' (List.mem_cons_of_mem _ h'))
      (fun s' h' => hother s' (List.mem_cons_of_mem _ h')) hrest
    exact ⟨priv', honly', hsame'.file.trans hsame.file, hsame'.injectReadErrors.trans hsame.injectReadErrors,
      hsame'.errorRatePercent.trans hsame.errorRatePercent⟩

end

/-! ## Main theorem -/

/-- A save and a load that meet at a path: the load answers differently. -/
theorem not_isolated {p q : CString} (hp : p.length < 64) (hq : q.length < 64) (key key' : RaftKey)
    (hmeet : p ++ key.text = q ++ key'.text) (hlen : (p ++ key.text).length < maxPathLen) : ¬ Isolated p q := by
  intro hisolated
  have htext := pathText_eq hp key
  have htext' := pathText_eq hq key'
  have hpath : (raftStorageAdapterInit p).path key = p ++ key.text := by
    rw [RaftStorageAdapter.path, htext, snprintf_eq hlen]
  have hpath' : (raftStorageAdapterInit q).path key' = p ++ key.text := by
    rw [RaftStorageAdapter.path, htext', ← hmeet, snprintf_eq hlen]
  have hfits : Fits (raftStorageAdapterInit p) ⟨.calm, key, [1]⟩ :=
    ⟨⟨rfl, fun _ => rfl⟩, by rw [htext]; exact hlen, Nat.one_pos, show 1 ≤ 2 ^ 30 by omega⟩
  obtain ⟨w', reply, priv', hsave, honly, hok, hhealthy, hsaved⟩ := save_spec oneMock_only mockOk_init healthy_init hfits
  have hrun : (raftStorageAdapterInit p).saveMachine.run oneMock [⟨.calm, key, [1]⟩] = some (w', [reply]) :=
    Machine.run_cons_eq_some.2 ⟨w', reply, [], hsave, rfl, rfl⟩
  have hload := hisolated oneMock w' 0 mockStorageInit _ _ .calm key' 1 oneMock_only
    (by simpa using hfits.path) (by rw [htext', ← hmeet]; exact hlen) hrun
  rw [honly.load_reply, oneMock_only.load_reply, hpath'] at hload
  have hbefore : (mockStorageReadSync .calm mockStorageInit (p ++ key.text) 0 1).map Prod.snd = some (.ofCode .notFound) := rfl
  have href : MockRefines (mockMap priv') priv' := ⟨hok, hhealthy, rfl⟩
  obtain ⟨priv'', hread, -⟩ : ∃ r, mockStorageReadSync .calm priv' (p ++ key.text) 0 1 = some (r, _) ∧ _ :=
    mock_read href (show 0 + 1 < 2 ^ 64 by omega)
  rw [hbefore, hread, Option.map_some, Option.some.injEq] at hload
  cases hsaved with
  | written hroom hmap hcount =>
    rw [← hpath, hmap, FileMap.readSync, FileMap.set_self] at hload
    cases hload
  | full hmissing hroom hsame => exact absurd hroom (by decide)

/-- Two adapters with different prefixes on one manager are isolated from each other just
when neither prefix is a state path of the other. -/
theorem prefixes_isolated_iff {p q : CString} (hne : p ≠ q) (hp : p.length < 64) (hq : q.length < 64) :
    Isolated p q ↔ ¬ StatePathOf p q ∧ ¬ StatePathOf q p := by
  have hone : (RaftKey.log 1).text.length = 5 := by decide
  constructor
  · intro hisolated
    constructor
    · rintro ⟨rest, rfl⟩
      have hmeet : p ++ (RaftKey.state (rest ++ (RaftKey.log 1).text)).text =
          p ++ cstr "state_" ++ rest ++ (RaftKey.log 1).text := by
        simp only [RaftKey.text, List.append_assoc]
      refine not_isolated hp hq _ (.log 1) hmeet ?_ hisolated
      rw [hmeet, List.length_append, hone, maxPathLen]
      omega
    · rintro ⟨rest, rfl⟩
      have hmeet : q ++ cstr "state_" ++ rest ++ (RaftKey.log 1).text =
          q ++ (RaftKey.state (rest ++ (RaftKey.log 1).text)).text := by
        simp only [RaftKey.text, List.append_assoc]
      refine not_isolated hp hq (.log 1) _ hmeet ?_ hisolated
      rw [List.length_append, hone, maxPathLen]
      omega
  · rintro ⟨hpq, hqp⟩ w w' ptr priv saves replies env key size h hsaves hkey hrun
    have hother : ∀ s ∈ saves, (raftStorageAdapterInit q).path key ≠ (raftStorageAdapterInit p).path s.key := by
      intro s hs he
      rw [RaftStorageAdapter.path, RaftStorageAdapter.path, snprintf_eq hkey, snprintf_eq (hsaves s hs), pathText_eq hp,
        pathText_eq hq] at he
      exact paths_disjoint hne hpq hqp s.key key he.symm
    obtain ⟨priv', h', hsame⟩ := saves_sameAt h hsaves hother hrun
    rw [h'.load_reply, h.load_reply, hsame.read]

theorem numbered_prefixes_isolated : Isolated (cstr "raft1_") (cstr "raft2_") :=
  (prefixes_isolated_iff (by decide) (by decide) (by decide)).2 (by decide)

/-- The state "log_1" of an instance "a" is entry one of an instance "astate_". -/
theorem state_path_not_isolated :
    OnlyMock oneMock 0 mockStorageInit ∧
    ((raftStorageAdapterInit (cstr "astate_")).load oneMock .calm (.log 1) 1).map Prod.snd = some (.ofCode .notFound) ∧
    (((raftStorageAdapterInit (cstr "a")).saveMachine.run oneMock [⟨.calm, .state (cstr "log_1"), [7]⟩]).bind fun r =>
      ((raftStorageAdapterInit (cstr "astate_")).load r.1 .calm (.log 1) 1).map Prod.snd) = some ⟨.ok, [7], 0⟩ ∧
    ¬ Isolated (cstr "a") (cstr "astate_") := by
  refine ⟨oneMock_only, by decide, by decide, ?_⟩
  exact not_isolated (by decide) (by decide) (.state (cstr "log_1")) (.log 1) (by decide) (by decide)

end XDevice
