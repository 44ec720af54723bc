import Abixio.Heal.Consensus
import Abixio.Storage.VersionChain
import Abixio.Storage.WalHealth

/-!
# Heal and the versions of a key

`heal_object` (`src/heal/worker.rs:111-144`) writes a repaired shard with `write_shard`
(`src/storage/local_volume.rs:641-731`). A shard of at most `wal_threshold` bytes goes to the log under its
version id, where `read_versioned_shard` finds it, and `read_meta_versions` puts it in front of the list.
Without a log, and for a longer shard, the call writes `shard.dat` in the object's own directory and a
`meta.json` with one entry. The shard of a version is in the version's directory, and `meta.json` lists every
version of the key.

* `HoldsHistory` is a key with a list of versions and delete markers: every disk lists them all, and
  gives back its shard of each version. `VersionDamaged` is that the file of one version's shard
  is gone or fails its checksum on some disks.
* An undamaged key is healthy, or has no current version, and is not written to. So is a key of which
  another version than the current one is damaged (`VersionDamaged.healWrites_nil`).
* The heal of the current version writes each damaged disk once (`CurrentReads.healed`). The file branch does
  not touch the file of the version (`writeShard_keeps`): what was damaged stays damaged. The log branch
  makes the version readable (`WalTier.Logged.reads`), and keeps the list if the version was its first entry
  (`relisted_iff`).

`heal_keeps_history_iff`: for a key whose files are written, the history is there after a heal exactly if
nothing was damaged, or the damaged version is the newest entry and its shards go to a log.
-/

namespace Abixio

open Lib List
open LocalVolume (currentVersion readShardFile shardPathOf)
open ObjectMeta (forgetLatest)
open Act (Moves)

variable {n : Nat} {env : Env} {log : NeedleEnv} {vid : Option String} {planner : PoolPlanner n}

/-! ## Histories -/

section History

/-- The id a PUT gave its version. -/
def Generation.versionId (g : Generation n) : String := g.req.versionId.getD ""

/-- The disks of a PUT's shards, in the order of the shards. -/
def Generation.disks (g : Generation n) : List (Fin n) :=
  g.record.shards.map PlacementShard.backendIndex

/-- One entry of a key's history: a versioned PUT or a delete marker. -/
inductive HistoryEntry (n : Nat) where
  | put (g : Generation n)
  | marker (m : ObjectMeta)

/-- What disk `d` lists for an entry, up to the latest flag. -/
def HistoryEntry.metaOn (env : Env) (d : Fin n) : HistoryEntry n → ObjectMeta
  | .put g => (g.metaOf env (g.disks.idxOf d)).forgetLatest
  | .marker m => m.forgetLatest

def HistoryEntry.versionId : HistoryEntry n → String
  | .put g => g.versionId
  | .marker m => m.versionId

/-- The version a read without a version id finds. -/
def currentPut (history : List (HistoryEntry n)) : Option (Generation n) :=
  history.findSome? fun
    | .put g => some g
    | .marker _ => none

/-- A history that versioned PUTs and delete markers can produce. -/
structure HistoryOk (env : Env) (planner : PoolPlanner n) (bucket key : String)
    (history : List (HistoryEntry n)) : Prop where
  stored : ∀ g, .put g ∈ history → g.Stored env planner bucket key
  layout : ∀ g, .put g ∈ history → g.parityN = 0 ∨ RsAccepts g.dataN g.parityN
  version : ∀ g, .put g ∈ history → validateVersionId g.versionId = .ok ()
  marker : ∀ m, .marker m ∈ history → m.isDeleteMarker = true
  distinct : (history.map HistoryEntry.versionId).Nodup

/-- The versions a disk lists, without the latest flags. -/
def listedVersions (bucket key : String) (v : WalVolume log) : Except StorageError (List ObjectMeta) :=
  (Backend.readMetaVersions bucket key v).map (map forgetLatest)

/-- **The disks hold a history**: every disk lists all its entries in order, and gives back its
shard of each version. -/
structure HoldsHistory (env : Env) (bucket key : String) (history : List (HistoryEntry n))
    (disks : Disks (WalVolume log) n) : Prop where
  dir : ∀ d, (disks d).files.fs.isDir (objectPath bucket key) = true
  listed : ∀ d, listedVersions bucket key (disks d) = .ok (history.map (HistoryEntry.metaOn env d))
  readable : ∀ g, .put g ∈ history → ∀ (i : Nat) (d : Fin n), g.disks[i]? = some d →
    ShardRead.forgetLatest (Backend.readVersionedShard bucket key g.versionId (disks d)) =
      .ok (g.rows.getD i [], (g.metaOf env i).forgetLatest)

/-- **Damage to one version**: on the disks in `damaged` the file of its shard is gone or fails its
checksum. -/
structure VersionDamaged (env : Env) (bucket key : String) (g : Generation n) (damaged : Finset (Fin n))
    (before after : Disks (WalVolume log) n) : Prop where
  intact : ∀ d, d ∉ damaged → after d = before d
  tier : ∀ d, (after d).tier = (before d).tier
  other : ∀ d q, q ≠ versionFile bucket key g.versionId →
    (after d).files.fs.lookup q = (before d).files.fs.lookup q
  lost : ∀ d ∈ damaged, ∀ i data, g.disks[i]? = some d →
    (after d).files.fs.read (versionFile bucket key g.versionId) = some (.bytes data) →
      verifyShardChecksum env data (g.metaOf env i).checksum = false

/-- No version of the key waits in the log. -/
def WalVolume.Unlogged (bucket key : String) (v : WalVolume log) : Prop :=
  ∀ t ∈ v.tier, ∀ id, t.wal.getVersioned bucket key id = none

end History

variable {bucket key : String}

/-! ## What the log does to the versions -/

section Log

variable {id : String} {v : WalVolume log} {t t' : WalTier} {data : Bytes} {m : ObjectMeta} {e : WalEntry}

namespace Wal

variable {w w' : Wal} (h : ∀ id, w.getVersioned bucket key id = none)
include h

theorem not_mem_keys {k : PendingKey} (hk : k ∈ w.pending.keys) : ¬ (k.1 = bucket ∧ k.2.1 = key) := by
  rintro ⟨rfl, rfl⟩
  exact AList.lookup_eq_none.mp (h k.2.2) (AList.mem_keys.mpr hk)

theorem versionsFor_eq_nil : w.versionsFor bucket key = [] := by
  unfold versionsFor
  rw [map_eq_nil_iff, filter_eq_nil_iff]
  exact fun k hk => by simpa using not_mem_keys h hk

/-- The only version of the key in the log. -/
theorem versionsFor_insert (hp : w'.pending = w.pending.insert (bucket, key, id) e) :
    w'.versionsFor bucket key = [id] := by
  unfold versionsFor
  rw [hp, AList.keys_insert, filter_cons_of_pos (by simp), filter_eq_nil_iff.mpr, map_singleton]
  exact fun k hk => by simpa using not_mem_keys h (@mem_of_mem_erase _ instBEqOfDecidableEq _ _ _ hk)

end Wal

variable (ha : Accepted bucket key vid)

theorem WalVolume.Unlogged.readVersioned (h : v.Unlogged bucket key) (id : String) :
    Backend.readVersionedShard bucket key id v = LocalVolume.readVersionedShard bucket key id v.files := by
  change WalVolume.readVersionedShard bucket key id v = _
  unfold WalVolume.readVersionedShard
  rw [WalVolume.readShardFromWal_of_none fun t ht => h t ht id]
  rfl

include ha in
theorem listed_eq (v : WalVolume log) : listedVersions bucket key v = .ok (map forgetLatest
      (v.tier.elim (storedVersions bucket key v.files) fun t => (t.wal.versionsFor bucket key).foldl
        (WalVolume.mergeVersion log bucket key t.wal) (storedVersions bucket key v.files))) := by
  have hstored : ((readMetaFile v.files.fs (metaFile bucket key)).map (·.versions)).getD [] =
      storedVersions bucket key v.files := by
    unfold storedVersions
    cases readMetaFile v.files.fs (objectPath bucket key ++ ["meta.json"]) <;> rfl
  change (WalVolume.readMetaVersions bucket key v).map _ = _
  unfold WalVolume.readMetaVersions
  rw [ha.objectMetaPath]
  simp only [bind, Except.bind, hstored, Except.map, markLatest_forget]
  cases v.tier <;> rfl

include ha in
theorem WalVolume.Unlogged.listed (h : v.Unlogged bucket key) : listedVersions bucket key v =
      .ok ((storedVersions bucket key v.files).map forgetLatest) := by
  rw [listed_eq ha]
  cases ht : v.tier with
  | none => rfl
  | some t =>
    rw [Option.elim_some, Wal.versionsFor_eq_nil (h t ht)]
    rfl

include ha in
/-- **A version in the log** is read from there and is the first in the list; other versions are read from
their files. -/
theorem WalTier.Logged.reads {v' : WalVolume log} (hu : v.Unlogged bucket key) (ht : v.tier = some t)
    (h : WalTier.Logged log bucket key id data m e t t') (hv : v' = { v with tier := some t' })
    (hid : m.versionId = id) (hne : id.isEmpty = false) :
    Backend.readVersionedShard bucket key id v' = .ok (data, m) ∧
      (∀ id', id' ≠ id → Backend.readVersionedShard bucket key id' v' =
        LocalVolume.readVersionedShard bucket key id' v.files) ∧
      listedVersions bucket key v' = .ok (m.forgetLatest ::
        ((storedVersions bucket key v.files).map forgetLatest).filter fun o => o.versionId ≠ id) := by
  subst hv
  have hpending : t'.wal.getVersioned bucket key id = some e := by
    unfold Wal.getVersioned
    rw [h.pending]
    exact AList.lookup_insert _
  have hversion : WalVolume.withVersionId id m = m := by
    unfold WalVolume.withVersionId
    rw [hid, hne]
    rfl
  refine ⟨?_, fun id' hid' => ?_, ?_⟩
  · have hread : WalVolume.readShardFromWal bucket key id { v with tier := some t' } = some (data, m) :=
      WalVolume.readShardFromWal_eq_some.mpr ⟨t', rfl, e, hpending, h.data, h.objectMeta⟩
    change WalVolume.readVersionedShard bucket key id _ = _
    unfold WalVolume.readVersionedShard
    rw [hread, Option.elim_some, hversion]
  · have hnone : ∀ t'' ∈ ({ v with tier := some t' } : WalVolume log).tier,
        t''.wal.getVersioned bucket key id' = none := by
      rintro _ ⟨⟩
      unfold Wal.getVersioned
      rw [h.pending, AList.lookup_insert_ne (by simpa using hid')]
      exact hu t ht id'
    change WalVolume.readVersionedShard bucket key id' _ = _
    unfold WalVolume.readVersionedShard
    rw [WalVolume.readShardFromWal_of_none hnone]
    rfl
  · rw [listed_eq ha, Option.elim_some, Wal.versionsFor_insert (hu t ht) h.pending, foldl_cons, foldl_nil]
    unfold WalVolume.mergeVersion
    rw [hne, hpending, Option.bind_some, h.objectMeta]
    simp only [Except.toOption, hversion, filter_map]
    rfl

end Log

/-! ## What a heal does not touch -/

section Frame

variable {id : String}

/-- **`write_shard` on the files** does not touch the file of a version. -/
theorem writeShard_keeps (ha : Accepted bucket key vid) (data : Bytes) (m : ObjectMeta) :
    Moves (KeepsFile (versionFile bucket key id)) (LocalVolume.writeShard bucket key data m) := by
  have hne : ∀ name : String, versionFile bucket key id ≠ objectPath bucket key ++ [name] := by
    intro name he
    have hlen := congrArg length he
    simp [versionFile] at hlen
  unfold LocalVolume.writeShard
  rw [ha.objectDir]
  refine Moves.andThen (Moves.ofExcept _) fun _ => ?_
  refine Moves.andThen (Moves.ofExcept _) fun _ => ?_
  rw [Act.ok_bind]
  refine Moves.andThen (createDirAll_keepsFile _) fun _ => ?_
  split_ifs
  · exact writeWhole_keepsFile (hne _) _
  · refine Moves.andThen (writeWhole_keepsFile (hne _) _).attempt fun _ => ?_
    refine Moves.andThen (writeWhole_keepsFile (hne _) _).attempt fun _ => ?_
    exact Moves.andThen (Moves.ofExcept _) fun _ => Moves.ofExcept _

end Frame

/-! ## Reads of a history -/

section Reads

variable {history : List (HistoryEntry n)} {before s : Disks (WalVolume log) n} {g : Generation n}
  {damaged lost : Finset (Fin n)}

theorem mem_of_currentPut (h : currentPut history = some g) : .put g ∈ history := by
  obtain ⟨e, he, hg⟩ := exists_of_findSome?_eq_some h
  cases e with
  | put g' =>
    cases hg
    exact he
  | marker m => cases hg

/-- The index of a disk's shard. -/
theorem Generation.Stored.idxOf_disks (h : g.Stored env planner bucket key)
    {i : Nat} {d : Fin n} (hd : g.disks[i]? = some d) : g.disks.idxOf d = i := by
  obtain ⟨hi, rfl⟩ := List.getElem?_eq_some_iff.mp hd
  exact (PoolPlanner.plan_ok h.plan).nodup.idxOf_getElem i hi

theorem Generation.Stored.exists_disk (h : g.Stored env planner bucket key) (d : Fin n) :
    ∃ i : Nat, g.disks[i]? = some d :=
  mem_iff_getElem?.mp (mem_distribution h.plan h.total d)

/-- The first listed version that is not a marker is the current one. -/
theorem find?_history (hok : HistoryOk env planner bucket key history) (d : Fin n) :
    (history.map (HistoryEntry.metaOn env d)).find? (fun m => !m.isDeleteMarker) =
      (currentPut history).map fun g => (g.metaOf env (g.disks.idxOf d)).forgetLatest := by
  have hmarker := hok.marker
  clear hok
  induction history with
  | nil => rfl
  | cons e history ih =>
    cases e with
    | put g => rfl
    | marker m =>
      have hm : (HistoryEntry.metaOn env d (.marker m)).isDeleteMarker = true :=
        hmarker m mem_cons_self
      rw [map_cons, find?_cons_of_neg (by rw [hm]; decide)]
      exact ih fun m' hm' => hmarker m' (mem_cons_of_mem _ hm')

theorem HistoryEntry.versionId_metaOn (e : HistoryEntry n) (d : Fin n) :
    (e.metaOn env d).versionId = e.versionId := by
  cases e <;> rfl

/-- Entries with one version id are one entry. -/
theorem HistoryOk.eq_of_versionId (hok : HistoryOk env planner bucket key history) {e e' : HistoryEntry n}
    (he : e ∈ history) (he' : e' ∈ history) (hid : e.versionId = e'.versionId) : e = e' :=
  inj_on_of_nodup_map hok.distinct he he' hid

/-- **A version that is put in front of the list** leaves the list as it was exactly if it was there. -/
theorem relisted_iff (hok : HistoryOk env planner bucket key history) (hg : .put g ∈ history) (d : Fin n) :
    HistoryEntry.metaOn env d (.put g) ::
        (history.map (HistoryEntry.metaOn env d)).filter (fun o => o.versionId ≠ g.versionId) =
      history.map (HistoryEntry.metaOn env d) ↔ history.head? = some (.put g) := by
  cases history with
  | nil => cases hg
  | cons e rest =>
    rw [map_cons, head?_cons, Option.some.injEq]
    constructor
    · intro hlist
      have hhead : (HistoryEntry.metaOn env d (.put g)).versionId = (e.metaOn env d).versionId :=
        congrArg _ (cons.inj hlist).1
      rw [HistoryEntry.versionId_metaOn, HistoryEntry.versionId_metaOn] at hhead
      exact hok.eq_of_versionId mem_cons_self hg hhead.symm
    · rintro rfl
      have hrest := (nodup_cons.mp hok.distinct).1
      rw [filter_cons_of_neg (by simp [HistoryEntry.versionId_metaOn, HistoryEntry.versionId]),
        filter_eq_self.mpr]
      intro o ho
      obtain ⟨e', he', rfl⟩ := mem_map.mp ho
      rw [decide_eq_true_eq, HistoryEntry.versionId_metaOn]
      rintro hid
      exact hrest (mem_map.mpr ⟨e', he', hid⟩)

theorem versionId_ne_empty {id : String} (h : validateVersionId id = .ok ()) :
    id.isEmpty = false := by
  cases hid : id.isEmpty with
  | false => rfl
  | true =>
    rw [String.isEmpty_iff.mp hid] at h
    revert h
    decide

variable {data : Bytes}

theorem read_of_readBytes {fs : FileTree FileData} {q : Path}
    (h : readBytes fs q = some data) : fs.read q = some (.bytes data) := by
  unfold readBytes at h
  split at h
  · cases h
    assumption
  · cases h

theorem currentVersion_of_readShard {v : LocalVolume} {m : ObjectMeta}
    (h : LocalVolume.readShard bucket key v = .ok (data, m)) :
    ∃ m', currentVersion bucket key v = .ok m' := by
  obtain ⟨m', hc, -⟩ := except_bind_eq_ok.mp h
  exact ⟨m', hc⟩

variable (ha : Accepted bucket key vid)
include ha

/-- A version that can be read has its shard in the version's file. -/
theorem read_versionFile {id : String} {v : LocalVolume} {m : ObjectMeta}
    (h : ShardRead.forgetLatest (LocalVolume.readVersionedShard bucket key id v) = .ok (data, m)) :
    v.fs.read (versionFile bucket key id) = some (.bytes data) := by
  rw [readVersionedShard_eq ha] at h
  cases hfind : (storedVersions bucket key v).find? fun m => m.versionId = id with
  | none => rw [hfind] at h; cases h
  | some o =>
    rw [hfind] at h
    cases hq : versionShardPath bucket key id with
    | error e => rw [hq] at h; cases h
    | ok q =>
      rw [hq] at h
      unfold versionFile
      rw [← ha.versionShardPath hq]
      simp only [Except.bind, LocalVolume.readShardFile] at h
      cases hbytes : readBytes v.fs q with
      | none => rw [hbytes] at h; cases h
      | some found =>
        rw [hbytes] at h
        cases h
        exact read_of_readBytes hbytes

/-- The current version of a disk is read from the version's file. -/
theorem readShard_version {v : LocalVolume} {m : ObjectMeta} {i : Nat}
    (hversion : validateVersionId g.versionId = .ok ()) (hcur : currentVersion bucket key v = .ok m)
    (hm : m.forgetLatest = (g.metaOf env i).forgetLatest) : LocalVolume.readShard bucket key v =
      (readShardFile (versionFile bucket key g.versionId) v).map fun data => (data, m) := by
  have hinline : m.inlineData = none := congrArg ObjectMeta.inlineData hm
  have hid : m.versionId = g.versionId := congrArg ObjectMeta.versionId hm
  have hpath : shardPathOf bucket key m = .ok (versionFile bucket key g.versionId) := by
    unfold shardPathOf versionShardPath versionDir
    rw [hid, versionId_ne_empty hversion, ha.objectDir, hversion]
    rfl
  unfold LocalVolume.readShard
  rw [hcur]
  simp only [bind, Except.bind, hinline, hpath]
  rfl

/-- **A heal sees the current version**: each disk reads its file, and gives back its shard unless it is
lost. -/
structure CurrentReads (env : Env) (bucket key : String) (g : Generation n) (lost : Finset (Fin n))
    (s : Disks (WalVolume log) n) : Prop where
  current : ∀ i d, g.disks[i]? = some d → ∃ m, m.forgetLatest = (g.metaOf env i).forgetLatest ∧
    Backend.readShard bucket key (s d) =
      (readShardFile (versionFile bucket key g.versionId) (s d).files).map fun data => (data, m)
  kept : ∀ i d, g.disks[i]? = some d → d ∉ lost →
    (s d).files.fs.read (versionFile bucket key g.versionId) = some (.bytes (g.rows.getD i []))
  lost : ∀ i d data, g.disks[i]? = some d → d ∈ lost →
    (s d).files.fs.read (versionFile bucket key g.versionId) = some (.bytes data) →
      verifyShardChecksum env data (g.metaOf env i).checksum = false

omit ha in
/-- As the healer reads them. -/
theorem CurrentReads.objectReads (h : CurrentReads env bucket key g lost s)
    (hstored : g.Stored env planner bucket key) :
    ∃ metas : Nat → ObjectMeta, (∀ i, (metas i).forgetLatest = (g.metaOf env i).forgetLatest) ∧
      ObjectReads env (fun d => Backend.readShard bucket key (s d)) g.disks g.rows metas lost ∧
      (∀ d data o, Backend.readShard bucket key (s d) = .ok (data, o) → ∃ i, o = metas i) ∧
      (∀ i j, (metas i).quorumEq (metas j) = true) ∧
      ∀ i, (metas i).erasure.data = g.dataN ∧ (metas i).erasure.parity = g.parityN := by
  have hmetas : ∀ i, ∃ m : ObjectMeta, m.forgetLatest = (g.metaOf env i).forgetLatest ∧
      ∀ d, g.disks[i]? = some d → Backend.readShard bucket key (s d) =
        (readShardFile (versionFile bucket key g.versionId) (s d).files).map fun data => (data, m) := by
    intro i
    cases hd : g.disks[i]? with
    | none => exact ⟨g.metaOf env i, rfl, nofun⟩
    | some d =>
      obtain ⟨m, hforget, hread⟩ := h.current i d hd
      refine ⟨m, hforget, fun d' hd' => ?_⟩
      cases hd'
      exact hread
  choose metas hforget hread using hmetas
  have hsum : ∀ i, (metas i).checksum = (g.metaOf env i).checksum := by
    intro i
    have hchecksum := congrArg ObjectMeta.checksum (hforget i)
    exact hchecksum
  refine ⟨metas, hforget, ⟨(PoolPlanner.plan_ok hstored.plan).nodup, ?_, fun i _ => ?_, fun i _ => ?_,
    fun i d hd hnot => ?_, fun d hd => ?_⟩, fun d data o ho => ?_, fun i j => ?_, fun i => ?_⟩
  · have hlen := congrArg length hstored.distribution
    exact hstored.rows_length.trans (hlen.trans hstored.distribution_length).symm
  · exact congrArg (fun m : ObjectMeta => m.erasure.index) (hforget i)
  · rw [hsum]
    exact verifyShardChecksum_blake3 env _
  · rw [hread i d hd, readShardFile_eq (h.kept i d hd hnot)]
    rfl
  · obtain ⟨i, hi⟩ := hstored.exists_disk d
    have hlost : d ∈ lost := hd.resolve_right fun hout => hout (mem_of_getElem? hi)
    rw [hread i d hi]
    unfold LocalVolume.readShardFile
    cases hbytes : readBytes (s d).files.fs (versionFile bucket key g.versionId) with
    | none => rfl
    | some data =>
      refine Eq.trans ?_ (h.lost i d data hi hlost (read_of_readBytes hbytes))
      rw [← hsum i]
      rfl
  · obtain ⟨i, hi⟩ := hstored.exists_disk d
    rw [hread i d hi] at ho
    cases hfile : readShardFile (versionFile bucket key g.versionId) (s d).files with
    | error e => rw [hfile] at ho; cases ho
    | ok data' =>
      rw [hfile] at ho
      cases ho
      exact ⟨i, rfl⟩
  · have hquorum : (metas i).quorumEq (metas j) =
        (g.metaOf env i).forgetLatest.quorumEq (g.metaOf env j).forgetLatest := by
      rw [← hforget i, ← hforget j]
      rfl
    rw [hquorum]
    exact g.agrees_self env
  · have herasure := congrArg ObjectMeta.erasure (hforget i)
    change (metas i).erasure = (g.metaOf env i).erasure at herasure
    rw [herasure]
    exact Prod.mk.inj (hstored.layout i)

variable (h : HoldsHistory env bucket key history before) (hok : HistoryOk env planner bucket key history)
  (hidle : ∀ d, (before d).Unlogged bucket key)
include h hidle

omit hok in
theorem HoldsHistory.stored (d : Fin n) : (storedVersions bucket key (before d).files).map forgetLatest =
    history.map (HistoryEntry.metaOn env d) :=
  Except.ok.inj (((hidle d).listed ha).symm.trans (h.listed d))

omit hok in
/-- The shard of a version is in its file. -/
theorem HoldsHistory.file (hg : .put g ∈ history) {i : Nat} {d : Fin n} (hd : g.disks[i]? = some d) :
    (before d).files.fs.read (versionFile bucket key g.versionId) = some (.bytes (g.rows.getD i [])) := by
  have hread := h.readable g hg i d hd
  rw [(hidle d).readVersioned] at hread
  exact read_versionFile ha hread

include hok in
/-- What a disk's current version is. -/
theorem HoldsHistory.current (d : Fin n) : currentMeta bucket key (before d).files =
    (currentPut history).map fun g => (g.metaOf env (g.disks.idxOf d)).forgetLatest := by
  rw [currentMeta_of_isDir ha (h.dir d), h.stored ha hidle d, find?_history hok d]

variable (hdamaged : VersionDamaged env bucket key g damaged before s)
include hdamaged

omit ha h hok in
theorem VersionDamaged.unlogged (d : Fin n) : (s d).Unlogged bucket key := by
  intro t ht
  rw [hdamaged.tier d] at ht
  exact hidle d t ht

omit h hok hidle in
/-- Damage to a version does not change `meta.json` or another version's file. -/
theorem VersionDamaged.frame (d : Fin n) :
    storedVersions bucket key (s d).files = storedVersions bucket key (before d).files ∧
      (s d).files.fs.isDir (objectPath bucket key) = (before d).files.fs.isDir (objectPath bucket key) ∧
      currentVersion bucket key (s d).files = currentVersion bucket key (before d).files ∧
      ∀ id, id ≠ g.versionId → (s d).files.fs.read (versionFile bucket key id) =
        (before d).files.fs.read (versionFile bucket key id) := by
  have hread : ∀ q, q ≠ versionFile bucket key g.versionId →
      (s d).files.fs.read q = (before d).files.fs.read q := by
    intro q hq
    unfold FileTree.read
    rw [hdamaged.other d q hq]
  have hmeta : readMetaFile (s d).files.fs (objectPath bucket key ++ ["meta.json"]) =
      readMetaFile (before d).files.fs (objectPath bucket key ++ ["meta.json"]) := by
    unfold readMetaFile
    rw [hread _ fun he => by simpa [versionFile] using congrArg length he]
  have hdir : (s d).files.fs.isDir (objectPath bucket key) =
      (before d).files.fs.isDir (objectPath bucket key) := by
    unfold FileTree.isDir
    rw [hdamaged.other d _ fun he => by simpa [versionFile] using congrArg length he]
  refine ⟨?_, hdir, ?_, fun id hid => hread _ fun he => ?_⟩
  · unfold storedVersions
    rw [hmeta]
  · unfold LocalVolume.currentVersion
    rw [ha.objectDir]
    simp only [bind, Except.bind, hdir, hmeta]
  · unfold versionFile at he
    rw [append_assoc, append_assoc, append_cancel_left_eq] at he
    exact hid (cons.inj he).1

include hok

/-- **The current version as a heal sees it**: it lost what was damaged, if it is the damaged version. -/
theorem VersionDamaged.currentReads {g' : Generation n} (hg : .put g ∈ history)
    (hcur : currentPut history = some g') :
    (g' = g → CurrentReads env bucket key g damaged s) ∧
      (g' ≠ g ∨ damaged = ∅ → CurrentReads env bucket key g' ∅ s) := by
  have hmem := mem_of_currentPut hcur
  have hcurrent : ∀ i d, g'.disks[i]? = some d → ∃ m, m.forgetLatest = (g'.metaOf env i).forgetLatest ∧
      Backend.readShard bucket key (s d) =
        (readShardFile (versionFile bucket key g'.versionId) (s d).files).map fun data => (data, m) := by
    intro i d hd
    have hmeta := h.current ha hok hidle d
    rw [hcur, Option.map_some, (hok.stored g' hmem).idxOf_disks hd] at hmeta
    obtain ⟨m, hm, hforget⟩ := Option.map_eq_some_iff.mp hmeta
    have hm' := ((hdamaged.frame ha d).2.2.1).trans (except_toOption_eq_some.mp hm)
    refine ⟨m, hforget, ?_⟩
    exact (WalVolume.reads_of_none fun t ht => hdamaged.unlogged hidle d t ht "").1.trans
      (readShard_version ha (hok.version g' hmem) hm' hforget)
  have hsame : ∀ i d, g'.disks[i]? = some d → (s d).files = (before d).files ∨ g'.versionId ≠ g.versionId →
      (s d).files.fs.read (versionFile bucket key g'.versionId) = some (.bytes (g'.rows.getD i [])) := by
    intro i d hd hcase
    rw [← h.file ha hidle hmem hd]
    rcases hcase with hfiles | hid
    · rw [hfiles]
    · exact (hdamaged.frame ha d).2.2.2 _ hid
  constructor
  · rintro rfl
    refine ⟨hcurrent, fun i d hd hnot => hsame i d hd (Or.inl ?_), fun i d data hd hlost => ?_⟩
    · rw [hdamaged.intact d hnot]
    · exact hdamaged.lost d hlost i data hd
  · intro hcase
    refine ⟨hcurrent, fun i d hd _ => hsame i d hd ?_, fun i d data hd hlost => ?_⟩
    · rcases hcase with hne | hnone
      · exact Or.inr fun hid => hne (HistoryEntry.put.inj (hok.eq_of_versionId hmem hg hid))
      · exact Or.inl (by rw [hdamaged.intact d (by rw [hnone]; simp)])
    · simp at hlost

end Reads

/-! ## The heal of the current version -/

section Heal

variable {history : List (HistoryEntry n)} {before s u : Disks (WalVolume log) n} {g : Generation n}
  {damaged lost : Finset (Fin n)}

theorem healWrites_eq_nil (h : ∀ c repairs, healPlan env (healReads bucket key s) ≠ .ok (.repair c repairs)) :
    healWrites env bucket key s = [] := by
  unfold healWrites
  split
  · rename_i c repairs hplan
    exact absurd hplan (h c repairs)
  · rfl

theorem Generation.Stored.index_lt (h : g.Stored env planner bucket key) {i : Nat} {d : Fin n}
    (hd : g.disks[i]? = some d) : i < n := by
  have hlen := congrArg length h.distribution
  rw [h.distribution_length] at hlen
  exact (List.getElem?_eq_some_iff.mp hd).1.trans_eq hlen

/-- The shards of a PUT have one length. -/
theorem Generation.Stored.row_length (h : g.Stored env planner bucket key) {i : Nat} {d : Fin n}
    (hd : g.disks[i]? = some d) : (g.rows.getD i []).length = (g.rows.getD 0 []).length := by
  obtain ⟨len, henc⟩ := h.encodes
  have hlt : i < g.rows.length := by
    rw [h.rows_length]
    exact h.index_lt hd
  have hrow : ∀ j < g.rows.length, (g.rows.getD j []).length = len := by
    intro j hj
    rw [getD_eq_getElem _ _ hj]
    exact henc.row _ (getElem_mem hj)
  rw [hrow i hlt, hrow 0 (Nat.zero_lt_of_lt hlt)]

section

variable (h : CurrentReads env bucket key g lost s) (hstored : g.Stored env planner bucket key)
  (hcard : lost.card ≤ g.parityN)
include h hstored hcard

/-- Nothing is written if nothing is lost, or if the shards are empty. -/
theorem CurrentReads.healWrites_nil (hcase : lost = ∅ ∨ g.rows.getD 0 [] = []) :
    healWrites env bucket key s = [] := by
  obtain ⟨metas, -, hreads, hmeta, hsame, hlayout⟩ := h.objectReads hstored
  have hlen := hstored.rows_length.trans hstored.total.symm
  refine healWrites_eq_nil fun c repairs hplan => ?_
  rcases hcase with rfl | hempty
  · have hhealthy := hreads.healthy hmeta hsame hlayout hlen hstored.data_pos
    change healPlan env (healReads bucket key s) = _ at hhealthy
    rw [hplan] at hhealthy
    cases hhealthy
  · have hcount := survives_count_eq hreads.nodup fun d (_ : d ∈ lost) =>
      mem_distribution hstored.plan hstored.total d
    rw [← hreads.length] at hcount
    obtain ⟨j, hheals, -⟩ := hreads.healsTo hmeta hsame hlayout hlen hstored.data_pos (by omega)
    refine hheals.plan_empty (fun r hr => ?_) hstored.data_pos c repairs hplan
    obtain ⟨i, hi, rfl⟩ := mem_iff_getElem.mp hr
    rw [hreads.length] at hi
    have hrow := hstored.row_length (getElem?_eq_getElem hi)
    rwa [hempty, getD_eq_getElem] at hrow

variable (ha : Accepted bucket key vid) (hlayout : g.parityN = 0 ∨ RsAccepts g.dataN g.parityN)
  (hids : PlannerIds planner s) (hmds : 0 < g.parityN → (env.code g.dataN g.parityN).Mds g.dataN g.parityN)
include ha hlayout hids hmds

/-- **The heal of the current version** writes the shards that are lost. -/
theorem CurrentReads.healed (hne : g.rows.getD 0 [] ≠ []) (hlost : lost ≠ ∅) :
    ∃ latest, ∀ i d, g.disks[i]? = some d → (healObject env bucket key s).2 d =
      if d ∈ lost then (Backend.writeShard bucket key (g.rows.getD i [])
        { g.metaOf env i with isLatest := latest } (s d)).2
      else s d := by
  obtain ⟨metas, hforget, hreads, hmeta, hsame, hlayouts⟩ := h.objectReads hstored
  have hlen := hstored.rows_length.trans hstored.total.symm
  obtain ⟨len, henc⟩ := hstored.encodes
  have hpos : 0 < len := by
    have hrow : 0 < g.rows.length := by
      rw [hlen]
      exact Nat.add_pos_left hstored.data_pos _
    rw [getD_eq_getElem _ _ hrow] at hne
    rw [← henc.row _ (getElem_mem hrow)]
    exact length_pos_iff.mpr hne
  obtain ⟨j, hplan⟩ := hreads.healPlan hmeta hsame hlayouts hlen hstored.data_pos
    (fun d _ => mem_distribution hstored.plan hstored.total d) hcard henc hpos hmds
    fun hp => hlayout.resolve_left (by omega)
  rw [if_neg hlost] at hplan
  have hvols : (metas j).erasure.volumeIds = g.record.shards.map PlacementShard.volumeId :=
    congrArg (fun m : ObjectMeta => m.erasure.volumeIds) (hforget j)
  have hmetas : ∀ i, repairMeta env (metas j) i (g.rows.getD i []) =
      { g.metaOf env i with isLatest := (metas j).isLatest } := by
    intro i
    have hj : metas j = { g.metaOf env j with isLatest := (metas j).isLatest } :=
      congrArg (fun m : ObjectMeta => { m with isLatest := (metas j).isLatest }) (hforget j)
    rw [hj]
    rfl
  obtain ⟨fixed, u, hrun, -, -, hwritten, hframe⟩ := healObject_missing_disks ha.bucket_ok ha.key_ok hplan
    hreads.nodup hreads.length fun i d hd => repairTarget_planned hids hstored.plan hvols hd
  refine ⟨(metas j).isLatest, fun i d hd => ?_⟩
  rw [hrun]
  split_ifs with hmem
  · rw [← hmetas]
    exact hwritten i d hd (by simp [survives, hd, hmem])
  · refine hframe d fun i' hd' => ?_
    simp [survives, hd', hmem]

end

section Damage

variable (ha : Accepted bucket key vid) (hok : HistoryOk env planner bucket key history) (hg : .put g ∈ history)
  (hdamaged : VersionDamaged env bucket key g damaged before s)
include ha hok hg hdamaged

/-- A damaged disk that is left as it is cannot read the version. -/
theorem VersionDamaged.not_holds {d : Fin n} (hd : d ∈ damaged) (hu : (u d).Unlogged bucket key)
    (hfile : (u d).files.fs.read (versionFile bucket key g.versionId) =
      (s d).files.fs.read (versionFile bucket key g.versionId)) :
    ¬ HoldsHistory env bucket key history u := by
  intro hafter
  obtain ⟨i, hi⟩ := (hok.stored g hg).exists_disk d
  have hread := hafter.readable g hg i d hi
  rw [hu.readVersioned] at hread
  have hbytes := read_versionFile ha hread
  rw [hfile] at hbytes
  have hgood : verifyShardChecksum env (g.rows.getD i []) (g.metaOf env i).checksum = true :=
    verifyShardChecksum_blake3 env _
  rw [hdamaged.lost d hd i _ hi hbytes] at hgood
  cases hgood

variable (h : HoldsHistory env bucket key history before) (hidle : ∀ d, (before d).Unlogged bucket key)
include h hidle

/-- **Nothing is written** if the current version is intact. -/
theorem VersionDamaged.healWrites_nil (hcase : currentPut history ≠ some g ∨ damaged = ∅) :
    healWrites env bucket key s = [] := by
  cases hcur : currentPut history with
  | none =>
    refine healWrites_eq_nil fun c repairs hplan => ?_
    obtain ⟨data, fst, -, hfirst, -⟩ := healPlan_ok hplan
    obtain ⟨_, hmem, rfl⟩ := exists_of_findSome?_eq_some hfirst
    obtain ⟨d, hread⟩ := mem_healReadsOf.mp hmem
    have hfiles := (WalVolume.reads_of_none fun t ht => hdamaged.unlogged hidle d t ht "").1.symm.trans hread
    obtain ⟨m, hm⟩ := currentVersion_of_readShard hfiles
    have hnone := h.current ha hok hidle d
    unfold currentMeta at hnone
    rw [← (hdamaged.frame ha d).2.2.1, hm, hcur] at hnone
    cases hnone
  | some g' =>
    have hreads := (hdamaged.currentReads ha h hok hidle hg hcur).2 (hcase.imp_left fun hne he => by
      rw [hcur, he] at hne
      exact hne rfl)
    exact hreads.healWrites_nil (hok.stored g' (mem_of_currentPut hcur)) (by simp) (Or.inl rfl)

omit hok hg in
/-- Another version than the damaged one is read from its file as before. -/
theorem VersionDamaged.other_version {g' : Generation n} (hg' : .put g' ∈ history)
    (hne : g'.versionId ≠ g.versionId) {i : Nat} {d : Fin n} (hd : g'.disks[i]? = some d) :
    ShardRead.forgetLatest (LocalVolume.readVersionedShard bucket key g'.versionId (s d).files) =
      .ok (g'.rows.getD i [], (g'.metaOf env i).forgetLatest) := by
  obtain ⟨hlist, -, -, hfile⟩ := hdamaged.frame ha d
  rw [← h.readable g' hg' i d hd, (hidle d).readVersioned, readVersionedShard_eq ha, readVersionedShard_eq ha,
    hlist]
  cases (storedVersions bucket key (before d).files).find? fun m => m.versionId = g'.versionId with
  | none => rfl
  | some m =>
    cases hq : versionShardPath bucket key g'.versionId with
    | error e => rfl
    | ok q =>
      have hsame : readShardFile q (s d).files = readShardFile q (before d).files := by
        have hread := hfile _ hne
        unfold versionFile at hread
        unfold LocalVolume.readShardFile readBytes
        rw [ha.versionShardPath hq, hread]
      simp only [Except.bind, hsame]

variable {room : Nat} {t : WalTier}

/-- **A shard that is repaired in the log** makes its version readable and puts it in front of the list. -/
theorem VersionDamaged.logged {i : Nat} {d : Fin n} {latest : Bool} (hd : g.disks[i]? = some d)
    (ht : t ∈ (s d).tier) (hsize : (g.rows.getD i []).length ≤ t.threshold)
    (hroomy : t.Roomy bucket key g.versionId room) (hroom : room ≤ 65535)
    (hrec : Recorded log room { g.metaOf env i with isLatest := latest })
    (hu : u d = (Backend.writeShard bucket key (g.rows.getD i [])
      { g.metaOf env i with isLatest := latest } (s d)).2) :
    (u d).files = (s d).files ∧
      ShardRead.forgetLatest (Backend.readVersionedShard bucket key g.versionId (u d)) =
        .ok (g.rows.getD i [], (g.metaOf env i).forgetLatest) ∧
      (∀ id, id ≠ g.versionId → Backend.readVersionedShard bucket key id (u d) =
        LocalVolume.readVersionedShard bucket key id (s d).files) ∧
      listedVersions bucket key (u d) = .ok (HistoryEntry.metaOn env d (.put g) ::
        (history.map (HistoryEntry.metaOn env d)).filter fun o => o.versionId ≠ g.versionId) := by
  obtain ⟨m, hm⟩ : ∃ m : ObjectMeta, m = { g.metaOf env i with isLatest := latest } := ⟨_, rfl⟩
  have hid : m.versionId = g.versionId := congrArg ObjectMeta.versionId hm
  rw [← hm] at hrec hu
  obtain ⟨e, t', hrun, hlogged⟩ : ∃ e t', WalVolume.logShard log bucket key g.versionId (g.rows.getD i []) m t =
      (.ok (), t') ∧ _ := hroomy.logShard hroom hrec hsize
  have hvolume : u d = { s d with tier := some t' } := by
    rw [hu]
    refine (congrArg Prod.snd (WalVolume.writeShard_logged ha.bucket_ok ha.key_ok ht hsize)).trans ?_
    rw [hid, hrun]
  obtain ⟨hread, hother, hlist⟩ := hlogged.reads ha (hdamaged.unlogged hidle d) ht hvolume hid
    (versionId_ne_empty (hok.version g hg))
  have hentry : m.forgetLatest = HistoryEntry.metaOn env d (.put g) := by
    change _ = (g.metaOf env (g.disks.idxOf d)).forgetLatest
    rw [hm, (hok.stored g hg).idxOf_disks hd]
    rfl
  refine ⟨by rw [hvolume], by rw [hread, hm]; rfl, hother, hlist.trans ?_⟩
  rw [(hdamaged.frame ha d).1, h.stored ha hidle d, hentry]

end Damage

/-- **When a heal keeps the versions of a key.** The files of its versions are written, and at most `parity_n`
disks' copies of one version are damaged. A heal keeps the history exactly if nothing was damaged, or the
damaged version is the newest entry, is not empty, and its shards go to the logs of the damaged disks. -/
theorem heal_keeps_history_iff {room : Nat} (hb : validateBucketName bucket = .ok ())
    (hk : validateObjectKey key = .ok ()) (hok : HistoryOk env planner bucket key history)
    (h : HoldsHistory env bucket key history before) (hidle : ∀ d, (before d).Unlogged bucket key)
    (hg : .put g ∈ history) (hdamaged : VersionDamaged env bucket key g damaged before s)
    (hcard : damaged.card ≤ g.parityN) (hids : PlannerIds planner s)
    (hmds : 0 < g.parityN → (env.code g.dataN g.parityN).Mds g.dataN g.parityN)
    (hroomy : ∀ d, ∀ t ∈ (s d).tier, t.Roomy bucket key g.versionId room) (hroom : room ≤ 65535)
    (hrec : ∀ i < n, ∀ latest, Recorded log room { g.metaOf env i with isLatest := latest }) :
    HoldsHistory env bucket key history (healObject env bucket key s).2 ↔
      damaged = ∅ ∨ history.head? = some (.put g) ∧ g.rows.getD 0 [] ≠ [] ∧
        ∀ d ∈ damaged, ∃ t ∈ (s d).tier, (g.rows.getD 0 []).length ≤ t.threshold := by
  have ha : Accepted bucket key none := ⟨hb, hk, nofun⟩
  have hstored := hok.stored g hg
  have hunlogged := hdamaged.unlogged hidle
  by_cases hnone : damaged = ∅
  · have hsame : s = before := funext fun d => hdamaged.intact d (by rw [hnone]; simp)
    refine iff_of_true ?_ (Or.inl hnone)
    rw [healObject_snd hb hk, hdamaged.healWrites_nil ha hok hg h hidle (Or.inr hnone), hsame]
    exact h
  obtain ⟨d₀, hd₀⟩ := Finset.nonempty_iff_ne_empty.mpr hnone
  rw [or_iff_right hnone]
  -- without a write the damaged disk stays as it is
  have hstays : healWrites env bucket key s = [] →
      ¬ HoldsHistory env bucket key history (healObject env bucket key s).2 := by
    intro hnil
    rw [healObject_snd hb hk, hnil]
    exact hdamaged.not_holds ha hok hg hd₀ (hunlogged d₀) rfl
  by_cases hcur : currentPut history = some g
  swap
  · refine iff_of_false (hstays (hdamaged.healWrites_nil ha hok hg h hidle (Or.inl hcur))) ?_
    rintro ⟨hhead, -⟩
    obtain ⟨rest, rfl⟩ := head?_eq_some_iff.mp hhead
    exact hcur rfl
  have hreads := (hdamaged.currentReads ha h hok hidle hg hcur).1 rfl
  by_cases hempty : g.rows.getD 0 [] = []
  · exact iff_of_false (hstays (hreads.healWrites_nil hstored hcard (Or.inr hempty)))
      fun hcond => hcond.2.1 hempty
  obtain ⟨latest, hhealed⟩ := hreads.healed hstored hcard ha (hok.layout g hg) hids hmds hempty hnone
  generalize (healObject env bucket key s).2 = u at hhealed ⊢
  have hlogged := fun i d (hd : g.disks[i]? = some d) (hmem : d ∈ damaged) t (ht : t ∈ (s d).tier)
      (hsize : (g.rows.getD 0 []).length ≤ t.threshold) =>
    hdamaged.logged ha hok hg h hidle hd ht (by rw [hstored.row_length hd]; exact hsize)
      (hroomy d t ht) hroom (hrec i (hstored.index_lt hd) latest) ((hhealed i d hd).trans (if_pos hmem))
  constructor
  · intro hafter
    -- a disk that writes the shard to its files keeps the damaged file
    have hlog : ∀ d ∈ damaged, ∃ t ∈ (s d).tier, (g.rows.getD 0 []).length ≤ t.threshold := by
      intro d hd
      by_contra hfiled
      push Not at hfiled
      obtain ⟨i, hi⟩ := hstored.exists_disk d
      have hvolume := (hhealed i d hi).trans (if_pos hd)
      have hlong : ∀ t ∈ (s d).tier, t.threshold < (g.rows.getD i []).length := by
        rw [hstored.row_length hi]
        exact hfiled
      have hfiles := WalVolume.writeShard_filed hb hk (m := { g.metaOf env i with isLatest := latest }) hlong
      replace hvolume := hvolume.trans (congrArg Prod.snd hfiles)
      refine hdamaged.not_holds ha hok hg hd ?_ ?_ hafter
      · rw [hvolume]
        exact hunlogged d
      · rw [hvolume]
        exact (writeShard_keeps ha _ _ (s d).files).1
    obtain ⟨i, hi⟩ := hstored.exists_disk d₀
    obtain ⟨t, ht, hsize⟩ := hlog d₀ hd₀
    obtain ⟨-, -, -, hlist⟩ := hlogged i d₀ hi hd₀ t ht hsize
    rw [hafter.listed d₀, Except.ok.injEq] at hlist
    exact ⟨(relisted_iff hok hg d₀).mp hlist.symm, hempty, hlog⟩
  · rintro ⟨hhead, -, hlog⟩
    have hkept : ∀ d, d ∉ damaged → u d = before d := by
      intro d hd
      obtain ⟨i, hi⟩ := hstored.exists_disk d
      rw [hhealed i d hi, if_neg hd, hdamaged.intact d hd]
    refine ⟨fun d => ?_, fun d => ?_, fun g' hg' i d hd => ?_⟩
    · by_cases hmem : d ∈ damaged
      · obtain ⟨i, hi⟩ := hstored.exists_disk d
        obtain ⟨t, ht, hsize⟩ := hlog d hmem
        rw [(hlogged i d hi hmem t ht hsize).1, (hdamaged.frame ha d).2.1]
        exact h.dir d
      · rw [hkept d hmem]
        exact h.dir d
    · by_cases hmem : d ∈ damaged
      · obtain ⟨i, hi⟩ := hstored.exists_disk d
        obtain ⟨t, ht, hsize⟩ := hlog d hmem
        rw [(hlogged i d hi hmem t ht hsize).2.2.2, (relisted_iff hok hg d).mpr hhead]
      · rw [hkept d hmem]
        exact h.listed d
    · by_cases hmem : d ∈ damaged
      · obtain ⟨j, hj⟩ := hstored.exists_disk d
        obtain ⟨t, ht, hsize⟩ := hlog d hmem
        obtain ⟨-, hread, hother, -⟩ := hlogged j d hj hmem t ht hsize
        by_cases hid : g'.versionId = g.versionId
        · obtain rfl : g' = g := HistoryEntry.put.inj (hok.eq_of_versionId hg' hg hid)
          rw [hread, ← hstored.idxOf_disks hj, hstored.idxOf_disks hd]
        · rw [hother _ hid]
          exact hdamaged.other_version ha h hidle hg' hid hd
      · rw [hkept d hmem]
        exact h.readable g' hg' i d hd

end Heal

/-! ### Two disks -/

/-- The configuration `VolumePool::new` builds for two disks. -/
def twoConfig : PoolConfig 2 where
  planner := samplePlanner
  localNodeId := ""

/-- A versioned PUT. -/
def versionedRequest (id : String) (createdAt : Nat) : PutRequest :=
  { sampleRequest with versionId := some id, createdAt := createdAt }

def versionX : String := "11111111-1111-4111-8111-111111111111"

def versionH : String := "22222222-2222-4222-8222-222222222222"

def versionMarker : String := "33333333-3333-4333-8333-333333333333"

def versionY : String := "44444444-4444-4444-8444-444444444444"

/-- The placement of `bkt/k` on two disks. -/
def twoRecord : PlacementRecord 2 where
  epochId := 1
  clusterId := "local-set"
  data := 1
  parity := 1
  shards := [⟨0, 1, "local", "v1"⟩, ⟨1, 0, "local", "v0"⟩]

/-- A versioned PUT of one byte as it is stored. -/
def versionedPut (id : String) (createdAt : Nat) (body : Bytes) : Generation 2 where
  req := versionedRequest id createdAt
  body := body
  dataN := 1
  parityN := 1
  record := twoRecord
  rows := [body, body]

def storedY : Generation 2 := versionedPut versionY 4 (utf8 "y")

def storedX : Generation 2 := versionedPut versionX 1 (utf8 "x")

/-- A log that can record the metadata of `y`. -/
def versionLog : NeedleEnv := { plainNeedleEnv with
  toVec := fun m => [UInt8.ofNat m.erasure.index, if m.isLatest then 1 else 0]
  fromSlice := fun bytes => .ok { storedY.metaOf sampleEnv (bytes.getD 0 0).toNat with
    isLatest := bytes.getD 1 0 = 1 } }

/-- The disks after versioned PUTs of `x` and `h`, the deletion of the version of `h`, a delete
marker, and a versioned PUT of `y`; then the log is enabled, or not. -/
def versionedDisks (logged : Bool) : Disks (WalVolume versionLog) 2 :=
  let put := fun (id : String) (createdAt : Nat) (text : String) (p : Pool LocalVolume 2) =>
    (putObjectStream sampleEnv twoConfig (versionedRequest id createdAt) true
      [.ok (utf8 text)] p).2
  let p := put versionH 2 "h" (put versionX 1 "x" ⟨sampleDisks, none, none⟩)
  let p := (deleteObjectVersion "bkt" "k" versionH p).2
  let p := put versionY 4 "y" (addDeleteMarker "bkt" "k" versionMarker 3 p).2
  fun d => ⟨p.disks d, if logged then some { emptyLog with threshold := 256 } else none⟩

/-- Disk 1 loses its shard of the version of `y`. -/
def versionLost (logged : Bool) : Disks (WalVolume versionLog) 2 :=
  Function.update (versionedDisks logged) 1 { versionedDisks logged 1 with
    files.fs := (versionedDisks logged 1).files.fs.restrict fun q => q ≠ versionFile "bkt" "k" versionY }

/-- The history of these disks. -/
def versionedHistory : List (HistoryEntry 2) :=
  [.put storedY, .marker (deleteMarker versionMarker 3), .put storedX]

theorem heal_keeps_history_iff_two : HoldsHistory sampleEnv "bkt" "k" versionedHistory
        (healObject sampleEnv "bkt" "k" (versionLost true)).2 ∧
      ¬ HoldsHistory sampleEnv "bkt" "k" versionedHistory
        (healObject sampleEnv "bkt" "k" (versionLost false)).2 := by
  have hput : ∀ g, .put g ∈ versionedHistory → g ∈ [storedY, storedX] := by
    intro g hg
    simpa [versionedHistory] using hg
  obtain ⟨hplan, hdir, hlisted, hputs⟩ :
      twoConfig.planner.plan sampleEnv "bkt" "k" 1 1 = .ok twoRecord ∧
      (∀ b d, (versionedDisks b d).files.fs.isDir (objectPath "bkt" "k") = true) ∧
      (∀ b d, listedVersions "bkt" "k" (versionedDisks b d) =
        .ok (versionedHistory.map (HistoryEntry.metaOn sampleEnv d))) ∧
      ∀ g ∈ [storedY, storedX], encodeObject sampleEnv 1 1 g.body = g.rows ∧ g.disks.length = 2 ∧
        ∀ (b : Bool) (i d : Fin 2), g.disks[(i : Nat)]? = some d →
          ShardRead.forgetLatest (Backend.readVersionedShard "bkt" "k" g.versionId (versionedDisks b d)) =
            .ok (g.rows.getD i [], (g.metaOf sampleEnv i).forgetLatest) := by
    decide +kernel
  have hok : HistoryOk sampleEnv twoConfig.planner "bkt" "k" versionedHistory := by
    refine ⟨fun g hg => ?_, fun g hg => Or.inr ?_, fun g hg => ?_, fun m hm => ?_, by decide⟩
    · have hrows := (hputs g (hput g hg)).1.symm
      rcases mem_pair.mp (hput g hg) with rfl | rfl <;> exact ⟨hplan, rfl, Or.inl hrows⟩
    · rcases mem_pair.mp (hput g hg) with rfl | rfl <;> decide
    · rcases mem_pair.mp (hput g hg) with rfl | rfl <;> decide
    · have hmarker : m = deleteMarker versionMarker 3 := by simpa [versionedHistory] using hm
      rw [hmarker]
      rfl
  have hholds : ∀ b, HoldsHistory sampleEnv "bkt" "k" versionedHistory (versionedDisks b) := by
    refine fun b => ⟨hdir b, hlisted b, fun g hg i d hd => ?_⟩
    obtain ⟨-, hlen, hread⟩ := hputs g (hput g hg)
    have hi : i < 2 := hlen ▸ (List.getElem?_eq_some_iff.mp hd).1
    exact hread b ⟨i, hi⟩ d hd
  have hgone : ∀ b, (versionLost b 1).files.fs.read (versionFile "bkt" "k" versionY) = none := by decide +kernel
  have hdamaged : ∀ b, VersionDamaged sampleEnv "bkt" "k" storedY {1} (versionedDisks b) (versionLost b) := by
    refine fun b => ⟨fun d hd => Function.update_of_ne (by simpa using hd) _ _, fun d => ?_, fun d q hq => ?_,
      fun d hd i data _ hread => ?_⟩
    · unfold versionLost
      rw [Function.update_apply]
      split_ifs with hd
      · rw [hd]
      · rfl
    · unfold versionLost
      rw [Function.update_apply]
      split_ifs with hd
      · rw [hd]
        exact FileTree.lookup_restrict_ne _ hq
      · rfl
    · rw [Finset.mem_singleton.mp hd] at hread
      cases (hgone b).symm.trans hread
  have hids : ∀ b, PlannerIds samplePlanner (versionLost b) := fun b => ⟨by revert b; decide +kernel,
    by revert b; decide +kernel⟩
  have hdecodes : ∀ (i : Fin 2) (latest : Bool), versionLog.fromSlice (versionLog.toVec
      { storedY.metaOf sampleEnv i with isLatest := latest }) =
        .ok { storedY.metaOf sampleEnv i with isLatest := latest } := by
    decide +kernel
  have hiff := fun b => heal_keeps_history_iff (by decide) (by decide) hok (hholds b)
    (fun d t ht id => by
      cases b with
      | false => cases ht
      | true =>
        cases ht
        exact AList.lookup_empty _)
    mem_cons_self (hdamaged b) (by decide) (hids b) (fun _ => replication_mds 1)
    (fun d t ht => by
      rw [(hdamaged b).tier d] at ht
      cases b with
      | false => cases ht
      | true =>
        cases ht
        exact ⟨by decide, by decide⟩)
    (show 2 ≤ 65535 by decide)
    fun i hi latest => ⟨le_refl 2, hdecodes ⟨i, hi⟩ latest⟩
  refine ⟨(hiff true).mpr (Or.inr ⟨rfl, by decide, fun d _ => ⟨_, (hdamaged true).tier d, by decide⟩⟩),
    fun hafter => ?_⟩
  rcases (hiff false).mp hafter with hnone | ⟨-, -, hlog⟩
  · exact absurd hnone (by decide)
  · obtain ⟨t, ht, -⟩ := hlog 1 (by decide)
    cases ((hdamaged false).tier 1).symm.trans ht

/-- The versions a disk lists. -/
def listedIds (v : WalVolume versionLog) : List (String × Bool) :=
  ((Backend.readMetaVersions "bkt" "k" v).toOption.getD []).map fun m => (m.versionId, m.isDeleteMarker)

/-- **A heal loses versions.** One disk lost its shard of the newest version. After the heal it lists
only that version, cannot read it, and cannot read the older one it could read before. -/
theorem heal_loses_versions :
    let healed := healObject sampleEnv "bkt" "k" (versionLost false)
    listedIds (versionLost false 1) = [(versionY, false), (versionMarker, true), (versionX, false)] ∧
      (Backend.readVersionedShard "bkt" "k" versionX (versionLost false 1)).isOk = true ∧
      healed.1 = .ok (.repaired 1) ∧ listedIds (healed.2 1) = [(versionY, false)] ∧
      Backend.readVersionedShard "bkt" "k" versionX (healed.2 1) = .error .objectNotFound ∧
      Backend.readVersionedShard "bkt" "k" versionY (healed.2 1) = .error .objectNotFound := by
  decide +kernel

end Abixio
