import Abixio.Storage.HealthyDisks
import Abixio.Storage.WalVolume

/-!
# Volumes with a log, when they are settled

A worker writes the files of an object some time after the object was acknowledged
(`src/storage/wal.rs:434-549`). A call on the object in between does not stop it: a delete drops the pending
entry and the worker brings the object back, and a newer object is overwritten by the older one. So the laws
of deletes and PUTs hold for an object that is *settled*: no entry of it is pending, and no request of it
that waits for a worker can still be read from the log (`WalVolume.Settled`).

* `work_cases` says all that a step of a worker can do to a volume. It writes the files of one object
  (`storeFiles_keeps`), so a deleted object stays away while the workers go on (`LawfulDelete`).
* `WalVolume.healthy`: on a volume where nothing is in the way, whose log is idle or has one entry of the
  key, the calls on the key go through, and the reads answer the same before and after the worker.
-/

namespace Abixio

open Lib List Act
open LocalVolume (currentVersion storeFiles)

variable {env : NeedleEnv} {bucket key : String}

/-! ## What a worker does -/

namespace Wal

variable {w : Wal} {id : UInt32}

/-- The segment is still there. -/
def hasSegment (id : UInt32) (w : Wal) : Bool :=
  id = w.active.segmentId || w.sealedSegments.any fun s => s.segmentId = id

theorem readBytes_of_gone (h : w.hasSegment id = false) (offset len : Nat) :
    w.readBytes id offset len = none := by
  unfold hasSegment at h
  rw [Bool.or_eq_false_iff, decide_eq_false_iff_not, any_eq_false] at h
  unfold readBytes
  rw [if_neg h.1, find?_eq_none.mpr h.2]
  rfl

/-- No segment comes back. -/
theorem hasSegment_of_mark {vid : String}
    (h : (w.markMaterializedVersioned bucket key vid).hasSegment id = true) : w.hasSegment id = true := by
  unfold markMaterializedVersioned at h
  split at h
  · exact h
  · dsimp only at h
    split at h
    · exact h
    · split at h
      · unfold tryDeleteSegment at h
        split at h
        · exact h
        · unfold hasSegment at h ⊢
          rw [Bool.or_eq_true, any_eq_true] at h ⊢
          refine h.imp_right ?_
          rintro ⟨s, hs, hid⟩
          exact ⟨s, mem_of_mem_eraseP hs, hid⟩
      · exact h

end Wal

namespace WalVolume

/-- **No work on the object is left**: it is not pending, and what waits of it cannot be read any more. -/
def Settled (bucket key : String) (v : WalVolume env) : Prop :=
  ∀ t ∈ v.tier, t.wal.getVersioned bucket key "" = none ∧
    ∀ r ∈ t.waiting, r.bucket = bucket → r.key = key → t.wal.hasSegment r.entry.segmentId = false

instance : Background (WalVolume env) where
  work := work
  Settled := Settled

variable {v : WalVolume env}

/-- **The step of a worker.** It drops a request, and writes the files of the object if the entry can be
read; the entry of the object may not be pending any more. -/
theorem work_cases (i : Nat) (v : WalVolume env) : work i v = v ∨
    ∃ t r wal, v.tier = some t ∧ r ∈ t.waiting ∧
      (work i v).tier = some { t with waiting := t.waiting.eraseIdx i, wal := wal } ∧
      (wal = t.wal ∨ wal = t.wal.markMaterializedVersioned r.bucket r.key r.versionId) ∧
      ((work i v).files = v.files ∨ t.wal.hasSegment r.entry.segmentId = true ∧
        ∃ data m, (work i v).files = (storeFiles r.bucket r.key r.versionId data m v.files).2) := by
  unfold work
  split
  · exact Or.inl rfl
  · rename_i t ht
    split
    · exact Or.inl rfl
    · rename_i r hr
      refine Or.inr ⟨t, r, ?_⟩
      simp only [processMaterialize]
      cases hdata : t.wal.readData r.entry with
      | none => exact ⟨t.wal, ht, mem_of_getElem? hr, rfl, Or.inl rfl, Or.inl rfl⟩
      | some data =>
        have hseg : t.wal.hasSegment r.entry.segmentId = true := by
          by_contra hgone
          rw [Bool.not_eq_true] at hgone
          unfold Wal.readData at hdata
          rw [Wal.readBytes_of_gone hgone] at hdata
          cases hdata
        cases hmeta : t.wal.readMeta env r.entry with
        | error e => exact ⟨t.wal, ht, mem_of_getElem? hr, rfl, Or.inl rfl, Or.inl rfl⟩
        | ok m =>
          simp only [onFiles]
          cases hrun : storeFiles r.bucket r.key r.versionId data m v.files with
          | mk res files =>
            cases res with
            | error e =>
              exact ⟨t.wal, ht, mem_of_getElem? hr, rfl, Or.inl rfl,
                Or.inr ⟨hseg, data, m, by rw [hrun]⟩⟩
            | ok u =>
              exact ⟨_, ht, mem_of_getElem? hr, rfl, Or.inr rfl,
                Or.inr ⟨hseg, data, m, by rw [hrun]⟩⟩

end WalVolume

/-! ## What it does not touch -/

section Frame

variable {q : Path}

/-- The file at `q` is as it was, and no directory is gone. -/
def KeepsFile (q : Path) (v v' : LocalVolume) : Prop :=
  v'.fs.read q = v.fs.read q ∧ ∀ p, v.fs.isDir p = true → v'.fs.isDir p = true

instance : Std.Refl (KeepsFile q) := ⟨fun _ => ⟨rfl, fun _ => id⟩⟩

instance : IsTrans LocalVolume (KeepsFile q) :=
  ⟨fun _ _ _ h h' => ⟨h'.1.trans h.1, fun p hp => h'.2 p (h.2 p hp)⟩⟩

theorem fsCall_keepsFile {op : FileTree FileData → Option (FileTree FileData)}
    (hop : ∀ fs fs', op fs = some fs' →
      fs'.read q = fs.read q ∧ ∀ p, fs.isDir p = true → fs'.isDir p = true) :
    Moves (KeepsFile q) (fsCall op) := by
  intro v
  unfold KeepsFile
  cases hrun : fsCall op v with
  | mk r v' =>
    cases r with
    | ok u => exact hop _ _ (fsCall_ok hrun)
    | error e =>
      rw [fsCall_error hrun]
      exact ⟨rfl, fun _ => id⟩

theorem createDirAll_keepsFile (p : Path) : Moves (KeepsFile q) (createDirAll p) :=
  fsCall_keepsFile fun _ _ h =>
    ⟨FileTree.createDirAll_read h q, fun _ hd => FileTree.createDirAll_isDir_of h hd⟩

theorem writeWhole_keepsFile {p : Path} (hq : q ≠ p) (content : FileData) :
    Moves (KeepsFile q) (writeWhole p content) := by
  refine Moves.andThen (fsCall_keepsFile fun fs fs' h => ?_) fun _ => fsCall_keepsFile fun fs fs' h => ?_
  · exact ⟨FileTree.writeFile_read_of_ne h hq, fun r hr => (FileTree.writeFile_isDir h r).trans hr⟩
  · cases h
    exact ⟨FileTree.modifyFile_read_of_ne hq, fun r hr => (FileTree.modifyFile_isDir r).trans hr⟩

/-- **The files of one object**: no other file changes, and no directory goes away. -/
theorem storeFiles_keeps {vid : String} (data : Bytes) (m : ObjectMeta)
    (hq : ∀ dir, objectDir bucket key = .ok dir → q ≠ dir ++ ["shard.dat"] ∧ q ≠ dir ++ ["meta.json"] ∧
      q ≠ dir ++ [vid, "shard.dat"]) : Moves (KeepsFile q) (storeFiles bucket key vid data m) := by
  unfold LocalVolume.storeFiles versionOption
  split_ifs
  · refine Moves.ofExcept_bind fun dir hdir => ?_
    obtain ⟨hshard, hmeta, -⟩ := hq dir hdir
    refine Moves.andThen (createDirAll_keepsFile dir) fun _ => ?_
    refine Moves.andThen (writeWhole_keepsFile hshard _).attempt fun _ => ?_
    refine Moves.andThen (writeWhole_keepsFile hmeta _).attempt fun _ => ?_
    exact Moves.andThen (Moves.ofExcept _) fun _ => Moves.ofExcept _
  · refine Moves.ofExcept_bind fun dir hdir => ?_
    obtain ⟨obj, hobj, rfl, -, hpath⟩ := versionDir_ok hdir
    obtain ⟨-, hmeta, hversion⟩ := hq obj hobj
    refine Moves.andThen (createDirAll_keepsFile _) fun _ => ?_
    rw [hpath, Act.ok_bind, objectMetaPath_eq hobj, Act.ok_bind]
    refine Moves.andThen (writeWhole_keepsFile hversion _) fun _ => ?_
    exact Moves.andThen (Moves.read _) fun _ => writeWhole_keepsFile hmeta _

end Frame

/-! ## Deletes -/

namespace WalVolume

variable {v v' : WalVolume env}

/-- The object is settled and has no `meta.json`. -/
structure Erased (bucket key : String) (v : WalVolume env) : Prop where
  settled : Settled bucket key v
  files : ∃ dir, objectDir bucket key = .ok dir ∧ readMetaFile v.files.fs (dir ++ ["meta.json"]) = none

theorem readShardFromWal_eq_some {vid : String} {data : Bytes} {m : ObjectMeta} :
    v.readShardFromWal bucket key vid = some (data, m) ↔ ∃ t ∈ v.tier, ∃ e,
      t.wal.getVersioned bucket key vid = some e ∧ t.wal.readData e = some data ∧
        t.wal.readMeta env e = .ok m := by
  unfold readShardFromWal
  simp only [bind, Option.bind_eq_some_iff, Option.mem_def, except_toOption_eq_some, Option.some.injEq,
    Prod.mk.injEq, exists_eq_right_right]

theorem statFromWal_eq_some {m : ObjectMeta} : v.statFromWal bucket key = some m ↔ ∃ t ∈ v.tier, ∃ e,
    t.wal.getVersioned bucket key "" = some e ∧ t.wal.readMeta env e = .ok m := by
  unfold statFromWal
  simp only [bind, Option.bind_eq_some_iff, Option.mem_def, except_toOption_eq_some]

theorem readShardFromWal_of_none {vid : String} (h : ∀ t ∈ v.tier, t.wal.getVersioned bucket key vid = none) :
    v.readShardFromWal bucket key vid = none := by
  unfold readShardFromWal
  cases ht : v.tier with
  | none => rfl
  | some t =>
    simp only [bind, Option.bind, h t ht]

/-- Without an entry the reads are those of the files. -/
theorem reads_of_none (h : ∀ t ∈ v.tier, t.wal.getVersioned bucket key "" = none) :
    readShard bucket key v = LocalVolume.readShard bucket key v.files ∧
      mmapShard bucket key v = LocalVolume.mmapShard bucket key v.files ∧
      statObject bucket key v = LocalVolume.statObject bucket key v.files := by
  have hnone := readShardFromWal_of_none h
  refine ⟨by rw [readShard, hnone]; rfl, by rw [mmapShard, hnone]; rfl, ?_⟩
  unfold statObject statFromWal
  cases ht : v.tier with
  | none => rfl
  | some t =>
    simp only [bind, Option.bind, h t ht]
    rfl

theorem Erased.absent (h : Erased bucket key v) : Absent bucket key v := by
  obtain ⟨hread, hmmap, hstat⟩ := reads_of_none fun t ht => (h.settled t ht).1
  obtain ⟨dir, hdir, hmeta⟩ := h.files
  have hcur : currentVersion bucket key v.files = .error .objectNotFound := by
    unfold currentVersion
    rw [hdir]
    simp only [bind, Except.bind, hmeta, ite_self]
  refine ⟨hstat.trans ?_, hread.trans ?_, hmmap.trans ?_⟩
  · rw [LocalVolume.statObject, hcur]
    rfl
  · rw [LocalVolume.readShard, hcur]
    rfl
  · rw [LocalVolume.mmapShard, hcur]
    rfl

theorem objectDir_ne {bucket' key' : String} {dir dir' : Path} (hdir : objectDir bucket key = .ok dir)
    (hdir' : objectDir bucket' key' = .ok dir') (h : ¬ (bucket' = bucket ∧ key' = key)) : dir ≠ dir' := by
  obtain ⟨-, rfl⟩ := objectDir_eq_ok hdir
  obtain ⟨-, rfl⟩ := objectDir_eq_ok hdir'
  intro he
  obtain ⟨hb, hk⟩ := cons.inj he
  exact h ⟨hb.symm, by rw [← intercalate_keySegments key', ← hk, intercalate_keySegments]⟩

/-- **A worker does not bring back what was erased.** -/
theorem Erased.work (h : Erased bucket key v) (i : Nat) : Erased bucket key (work i v) := by
  rcases work_cases i v with hsame | ⟨t, r, wal, ht, hr, htier, hwal, hfiles⟩
  · rw [hsame]
    exact h
  · obtain ⟨hpending, hwaiting⟩ := h.settled t ht
    refine ⟨fun t' ht' => ?_, ?_⟩
    · rw [htier] at ht'
      cases ht'
      refine ⟨?_, fun r' hr' hb hk => ?_⟩
      · rcases hwal with rfl | rfl
        · exact hpending
        · unfold Wal.getVersioned
          rw [Wal.lookup_markMaterialized]
          split_ifs
          · rfl
          · exact hpending
      · have hgone := hwaiting r' (mem_of_mem_eraseIdx hr') hb hk
        rcases hwal with rfl | rfl
        · exact hgone
        · rw [← Bool.not_eq_true] at hgone ⊢
          exact fun hseg => hgone (Wal.hasSegment_of_mark hseg)
    · obtain ⟨dir, hdir, hmeta⟩ := h.files
      refine ⟨dir, hdir, ?_⟩
      rcases hfiles with hfiles | ⟨hseg, data, m, hfiles⟩
      · rw [hfiles]
        exact hmeta
      · have hother : ¬ (r.bucket = bucket ∧ r.key = key) := by
          rintro ⟨hb, hk⟩
          rw [hwaiting r hr hb hk] at hseg
          cases hseg
        have hkeeps : KeepsFile (dir ++ ["meta.json"]) v.files (WalVolume.work i v).files := by
          rw [hfiles]
          refine storeFiles_keeps data m (fun dir' hdir' => ⟨fun he => ?_, fun he => ?_, fun he => ?_⟩) _
          · exact absurd (append_inj' he rfl).2 (by decide)
          · exact objectDir_ne hdir hdir' hother (append_inj' he rfl).1
          · rw [append_cons dir'] at he
            exact absurd (append_inj' he rfl).2 (by decide)
        unfold readMetaFile at hmeta ⊢
        rw [hkeeps.1]
        exact hmeta

theorem Erased.afterWork (steps : List Nat) : ∀ {v : WalVolume env}, Erased bucket key v →
    Erased bucket key (afterWork steps v) := by
  induction steps with
  | nil => exact fun h => h
  | cons i steps ih => exact fun h => ih (h.work i)

theorem deleteObject_of_none (h : ∀ t ∈ v.tier, t.wal.getVersioned bucket key "" = none) :
    deleteObject bucket key v = onFiles (LocalVolume.deleteObject bucket key) v := by
  have hnone : v.tier.filter (fun t => (t.wal.getVersioned bucket key "").isSome) = none := by
    rw [Option.filter_eq_none_iff]
    intro t ht
    rw [h t ht]
    decide
  unfold deleteObject
  rw [hnone]

/-- A delete drops the pending entry, or goes to the files. -/
theorem deleteObject_cases (bucket key : String) (v : WalVolume env) :
    (∃ tier, deleteObject bucket key v = (.ok (), { v with tier := tier })) ∨
      (∀ t ∈ v.tier, t.wal.getVersioned bucket key "" = none) ∧
        deleteObject bucket key v = onFiles (LocalVolume.deleteObject bucket key) v := by
  cases hf : v.tier.filter (fun t => (t.wal.getVersioned bucket key "").isSome) with
  | some t =>
    refine Or.inl ⟨some { t with wal := t.wal.markMaterializedVersioned bucket key "" }, ?_⟩
    unfold deleteObject
    rw [hf]
  | none =>
    have hnone : ∀ t ∈ v.tier, t.wal.getVersioned bucket key "" = none := by
      intro t ht
      have hno := Option.filter_eq_none_iff.mp hf t ht
      rwa [Bool.not_eq_true, Option.isSome_eq_false_iff, Option.isNone_iff_eq_none] at hno
    exact Or.inr ⟨hnone, deleteObject_of_none hnone⟩

theorem erased_of_delete (hq : Settled bucket key v) (h : deleteObject bucket key v = (.ok (), v')) :
    Erased bucket key v' := by
  rw [deleteObject_of_none fun t ht => (hq t ht).1, onFiles, Prod.mk.injEq] at h
  obtain ⟨hok, rfl⟩ := h
  refine ⟨hq, ?_⟩
  rcases LocalVolume.deleteObject_cases bucket key v.files with ⟨e, he, -⟩ | ⟨dir, hdir, hcall⟩
  · rw [he] at hok
    cases hok
  · rw [hcall] at hok ⊢
    have hfs := fsCall_ok (Prod.ext hok rfl)
    refine ⟨dir, hdir, ?_⟩
    unfold readMetaFile
    rw [FileTree.removeDirAll_read hfs (prefix_append _ _)]

end WalVolume

instance : LawfulDelete (WalVolume env) where
  delete_ok hq h steps := ((WalVolume.erased_of_delete hq h).afterWork steps).absent
  delete_error {bucket key v v' e} h := by
    change WalVolume.deleteObject bucket key v = _ at h
    change WalVolume.statObject bucket key v' = WalVolume.statObject bucket key v
    rcases WalVolume.deleteObject_cases bucket key v with ⟨tier, hrun⟩ | ⟨hnone, hrun⟩
    · rw [hrun] at h
      cases h
    · rw [hrun, WalVolume.onFiles, Prod.mk.injEq] at h
      obtain ⟨herr, rfl⟩ := h
      have hafter : ∀ files, WalVolume.statObject bucket key (⟨files, v.tier⟩ : WalVolume env) =
          LocalVolume.statObject bucket key files := fun files =>
        (WalVolume.reads_of_none (v := ⟨files, v.tier⟩) hnone).2.2
      rw [hafter, (WalVolume.reads_of_none hnone).2.2]
      exact LawfulDelete.delete_error (V := LocalVolume) (Prod.ext herr rfl)
  delete_found {bucket key v m} h := by
    change (WalVolume.deleteObject bucket key v).1 ≠ _
    rcases WalVolume.deleteObject_cases bucket key v with ⟨tier, hrun⟩ | ⟨hnone, hrun⟩
    · rw [hrun]
      simp
    · rw [hrun]
      refine LawfulDelete.delete_found (V := LocalVolume) (m := m) ?_
      rw [← h]
      exact (WalVolume.reads_of_none hnone).2.2.symm
  delete_bucket {bucket key v} := by
    change LocalVolume.bucketExists bucket (WalVolume.deleteObject bucket key v).2.files = _
    rcases WalVolume.deleteObject_cases bucket key v with ⟨tier, hrun⟩ | ⟨-, hrun⟩
    · rw [hrun]
      rfl
    · rw [hrun]
      exact LawfulDelete.delete_bucket (V := LocalVolume)
  work_bucket {bucket v} i h := by
    change LocalVolume.bucketExists bucket (WalVolume.work i v).files = true
    change LocalVolume.bucketExists bucket v.files = true at h
    rcases WalVolume.work_cases i v with hsame | ⟨t, r, wal, -, -, -, -, hfiles | ⟨-, data, m, hfiles⟩⟩
    · rw [hsame]
      exact h
    · rw [hfiles]
      exact h
    · have hkeeps : KeepsFile [] v.files (WalVolume.work i v).files := by
        rw [hfiles]
        exact storeFiles_keeps data m (fun dir _ => by simp) _
      unfold LocalVolume.bucketExists at h ⊢
      cases hdir : bucketDir bucket with
      | error e =>
        rw [hdir] at h
        cases h
      | ok dir =>
        rw [hdir] at h
        exact hkeeps.2 dir h

/-! ## PUTs -/

section Health

variable {room : Nat} {data : Bytes} {m : ObjectMeta} {t : WalTier}

/-- Metadata that the log gives back. The log has 16 bits for its length. -/
structure Recorded (env : NeedleEnv) (room : Nat) (m : ObjectMeta) : Prop where
  short : (env.toVec m).length ≤ room
  decodes : env.fromSlice (env.toVec m) = .ok m

namespace WalTier

/-- A segment has room for a shard of a version with `room` bytes of metadata. -/
structure Roomy (bucket key vid : String) (room : Nat) (t : WalTier) : Prop where
  fits : superblockSize + (headerSize + (utf8 bucket).length + (utf8 key).length + (utf8 vid).length + room +
    t.threshold) ≤ t.wal.segmentCapacity
  small : t.wal.segmentCapacity < 2 ^ 32

/-- The log has nothing to do. -/
structure Idle (t : WalTier) : Prop where
  waiting : t.waiting = []
  pending : ∀ k, t.wal.pending.lookup k = none

/-- The log has the shard of one object, and its request waits or was not sent. -/
structure InFlight (env : NeedleEnv) (bucket key : String) (data : Bytes) (m : ObjectMeta) (e : WalEntry)
    (t : WalTier) : Prop where
  plain : m.Plain
  version : m.versionId = ""
  pending : ∀ k, t.wal.pending.lookup k = if k = (bucket, key, "") then some e else none
  waiting : t.waiting = [] ∨ t.waiting = [⟨bucket, key, "", e⟩]
  data : t.wal.readData e = some data
  objectMeta : t.wal.readMeta env e = .ok m

/-- The shard of a version was appended to the log, and the request was sent or found its channel full. -/
structure Logged (env : NeedleEnv) (bucket key vid : String) (data : Bytes) (m : ObjectMeta) (e : WalEntry)
    (t t' : WalTier) : Prop where
  pending : t'.wal.pending = t.wal.pending.insert (bucket, key, vid) e
  waiting : t'.waiting = t.waiting ∨ t'.waiting = t.waiting ++ [⟨bucket, key, vid, e⟩]
  data : t'.wal.readData e = some data
  objectMeta : t'.wal.readMeta env e = .ok m
  capacity : t'.wal.segmentCapacity = t.wal.segmentCapacity
  threshold : t'.threshold = t.threshold

/-- **A small shard goes to the log.** -/
theorem Roomy.logShard {vid : String} (hroomy : t.Roomy bucket key vid room) (hroom : room ≤ 65535)
    (hrec : Recorded env room m) (hsize : data.length ≤ t.threshold) :
    ∃ e t', WalVolume.logShard env bucket key vid data m t = (.ok (), t') ∧
      Logged env bucket key vid data m e t t' := by
  have hvid : (versionOption vid).getD "" = vid := by
    unfold versionOption
    split_ifs with hempty
    · exact (String.isEmpty_iff.mp hempty).symm
    · rfl
  have hshort : (Needle.new env bucket key (versionOption vid) m data).metaBytes.length ≤ room := hrec.short
  have hlen : (Needle.new env bucket key (versionOption vid) m data).serializedSize ≤ headerSize +
      (utf8 bucket).length + (utf8 key).length + (utf8 vid).length + room + t.threshold := by
    unfold Needle.serializedSize
    simp only [Needle.new, hvid]
    have := hrec.short
    omega
  obtain ⟨e, wal, hrun, happended⟩ : ∃ e wal, t.wal.append env
      (Needle.new env bucket key (versionOption vid) m data) = (.ok e, wal) ∧ _ :=
    Wal.append_ok ((Nat.add_le_add_left hlen _).trans hroomy.fits) hroomy.small (hshort.trans hroom)
  have hlog : WalVolume.logShard env bucket key vid data m t = (.ok (), { t with
      wal := wal
      waiting := if t.full.head? = some true then t.waiting else t.waiting ++ [⟨bucket, key, vid, e⟩]
      full := t.full.tail }) := by
    unfold WalVolume.logShard
    rw [hrun]
  refine ⟨e, _, hlog, ?_, ?_, happended.data, ?_, happended.capacity, rfl⟩
  · refine happended.pending.trans ?_
    unfold Wal.keyOf Needle.new
    simp only [hvid]
  · dsimp only
    split_ifs
    · exact Or.inl rfl
    · exact Or.inr rfl
  · unfold Wal.readMeta
    rw [happended.metaBytes]
    change Needle.decodeMeta env (env.toVec m) = _
    unfold Needle.decodeMeta
    rw [hrec.decodes]
    rfl

/-- An idle log then has that object. -/
theorem Idle.logShard (h : t.Idle) (hroomy : t.Roomy bucket key "" room) (hroom : room ≤ 65535)
    (hm : m.Plain) (hid : m.versionId = "") (hrec : Recorded env room m)
    (hsize : data.length ≤ t.threshold) :
    ∃ e t', WalVolume.logShard env bucket key "" data m t = (.ok (), t') ∧
      t'.Roomy bucket key "" room ∧ t'.InFlight env bucket key data m e := by
  obtain ⟨e, t', hrun, hlogged⟩ : ∃ e t', WalVolume.logShard env bucket key "" data m t = (.ok (), t') ∧ _ :=
    hroomy.logShard hroom hrec hsize
  refine ⟨e, t', hrun, ⟨?_, ?_⟩, hm, hid, fun k => ?_, ?_, hlogged.data, hlogged.objectMeta⟩
  · rw [hlogged.capacity, hlogged.threshold]
    exact hroomy.fits
  · rw [hlogged.capacity]
    exact hroomy.small
  · rw [hlogged.pending]
    split_ifs with hk
    · rw [hk]
      exact AList.lookup_insert _
    · exact (AList.lookup_insert_ne hk).trans (h.pending k)
  · have hwaiting := hlogged.waiting
    rwa [h.waiting, nil_append] at hwaiting

end WalTier

namespace WalVolume

/-- **A volume where nothing is in the way of an object**, and whose log is idle or has that object. -/
structure Ready (bucket key : String) (room : Nat) (v : WalVolume env) : Prop where
  files : v.files.Ready bucket key
  bucketDir : v.files.fs.isDir [bucket] = true
  tier : ∀ t ∈ v.tier, t.Roomy bucket key "" room ∧
    (t.Idle ∨ ∃ data m e, t.InFlight env bucket key data m e)

variable {v : WalVolume env}

/-- A settled volume is idle. -/
theorem Ready.idle (h : v.Ready bucket key room) (hq : Settled bucket key v) : ∀ t ∈ v.tier, t.Idle := by
  intro t ht
  rcases (h.tier t ht).2 with hidle | ⟨data, m, e, hflight⟩
  · exact hidle
  · have hnone := (hq t ht).1
    unfold Wal.getVersioned at hnone
    rw [hflight.pending, if_pos rfl] at hnone
    cases hnone

/-- The reads of an object in the log. -/
theorem stores_of_inFlight {e : WalEntry} (ht : v.tier = some t) (h : t.InFlight env bucket key data m e) :
    Returns bucket key data m v := by
  have hget : t.wal.getVersioned bucket key "" = some e := (h.pending _).trans (if_pos rfl)
  have hlog : v.readShardFromWal bucket key "" = some (data, m) := by
    unfold readShardFromWal
    rw [ht]
    simp only [bind, Option.bind, hget, h.data, h.objectMeta, Except.toOption]
  change readShard bucket key v = _ ∧ mmapShard bucket key v = _ ∧ statObject bucket key v = _
  refine ⟨by rw [readShard, hlog]; rfl, by rw [mmapShard, hlog]; rfl, ?_⟩
  unfold statObject statFromWal
  rw [ht]
  simp only [bind, Option.bind, hget, h.objectMeta, Except.toOption]
  rfl

theorem stores_of_reads (hm : m.Plain) (h : Returns bucket key data m v) : Stores bucket key data m v :=
  ⟨h.1, h.2.2, m, h.2.1, congrArg _ hm.inlineNone.symm⟩

/-- A small shard that goes to an idle log is what the volume has. -/
theorem Ready.logShard (h : v.Ready bucket key room) (hroom : room ≤ 65535) (ht : v.tier = some t)
    (hidle : t.Idle) (hm : m.Plain) (hid : m.versionId = "") (hrec : Recorded env room m)
    (hsize : data.length ≤ t.threshold) :
    ∃ t', logShard env bucket key "" data m t = (.ok (), t') ∧
      Ready bucket key room ({ v with tier := some t' } : WalVolume env) ∧
      Stores bucket key data m ({ v with tier := some t' } : WalVolume env) := by
  obtain ⟨e, t', hrun, hroomy, hflight⟩ : ∃ e t', WalVolume.logShard env bucket key "" data m t =
      (.ok (), t') ∧ _ := hidle.logShard (h.tier t ht).1 hroom hm hid hrec hsize
  refine ⟨t', hrun, ⟨h.files, h.bucketDir, fun t'' ht'' => ?_⟩,
    stores_of_reads hm (stores_of_inFlight rfl hflight)⟩
  cases ht''
  exact ⟨hroomy, Or.inr ⟨data, m, e, hflight⟩⟩

/-- The reads of an object in its files, with an idle log. -/
theorem stores_of_idle (hidle : ∀ t ∈ v.tier, t.Idle)
    (h : Returns bucket key data m v.files) : Returns bucket key data m v := by
  obtain ⟨hread, hmmap, hstat⟩ := reads_of_none fun t ht => (hidle t ht).pending (bucket, key, "")
  exact ⟨hread.trans h.1, hmmap.trans h.2.1, hstat.trans h.2.2⟩

/-- Without an entry the volume has what its files have. -/
theorem stores_of_files (hnone : ∀ t ∈ v.tier, t.wal.getVersioned bucket key "" = none)
    (h : Stores bucket key data m v.files) : Stores bucket key data m v := by
  obtain ⟨hread, hmmap, hstat⟩ := reads_of_none hnone
  obtain ⟨m', hm', hinline⟩ := h.mmap
  exact ⟨hread.trans h.read, hstat.trans h.stat, m', hmmap.trans hm', hinline⟩

/-- A writer without a log is one of the file tier. -/
theorem writing_file {files₀ files : LocalVolume} {chunks : List Bytes} {w : LocalShardWriter}
    (h : Writing bucket key none files₀ chunks w files) :
    Writing bucket key none (⟨files₀, none⟩ : WalVolume env) chunks (VolumeWriter.file w) ⟨files, none⟩ := by
  induction h with
  | opened h =>
    refine .opened ?_
    change openShardWriter bucket key none _ = _
    change LocalVolume.openShardWriter bucket key none files₀ = _ at h
    unfold openShardWriter
    simp only [bind_apply, onFiles, h]
    rfl
  | chunk hw h ih =>
    refine .chunk ih ?_
    change LocalVolume.writeChunk _ _ _ = _ at h
    change writeChunk _ _ _ = _
    unfold writeChunk
    simp only [bind_apply, onFiles, h]
    rfl

section

variable (ha : Accepted bucket key none)
include ha

/-- The two files of an object, where nothing is in the way. -/
theorem storeFiles_ready {files : LocalVolume} (h : files.Ready bucket key) (hm : m.Plain)
    (hid : m.versionId = "") (data : Bytes) :
    ∃ files', storeFiles bucket key "" data m files = (.ok (), files') ∧
      files'.Ready bucket key ∧ files'.fs.isDir [bucket] = true ∧ Returns bucket key data m files' := by
  have hlatest : { m with isLatest := true } = m := by rw [← hm.latest]
  obtain ⟨fs, hmk, hready, hdir, hbucket⟩ := h.createDirAll
  obtain ⟨files', hw, hready', hdirs⟩ := hready.writeFiles hdir data ⟨bucket, key, [m]⟩
  have hobj : objectDir bucket key = .ok (bucket :: keySegments key) := ha.objectDir
  refine ⟨files', ?_, hready', (hdirs _).trans hbucket, LocalVolume.writeFiles_ok hobj hdir hm hid hw⟩
  unfold LocalVolume.storeFiles
  rw [versionOption_empty]
  simp only [hobj, Act.ok_bind, hlatest]
  rw [bind_ok hmk]
  exact hw

/-- **The worker writes the object in flight.** The reads answer as before. -/
theorem work_inFlight {e : WalEntry} (h : v.Ready bucket key room) (ht : v.tier = some t)
    (hflight : t.InFlight env bucket key data m e) (i : Nat) :
    (work i v).Ready bucket key room ∧ Returns bucket key data m (work i v) := by
  have hsame : t.waiting[i]? = none → work i v = v := by
    intro hnone
    unfold work
    rw [ht]
    simp only [hnone]
  cases hr : t.waiting[i]? with
  | none =>
    rw [hsame hr]
    exact ⟨h, stores_of_inFlight ht hflight⟩
  | some r =>
    obtain ⟨hi, rfl⟩ := List.getElem?_eq_some_iff.mp hr
    have hwaiting : t.waiting = [⟨bucket, key, "", e⟩] := by
      refine hflight.waiting.resolve_left fun hnil => ?_
      rw [hnil] at hi
      exact absurd hi (Nat.not_lt_zero _)
    obtain ⟨files, hrun, hready, hbucket, hreads⟩ :=
      storeFiles_ready ha h.files hflight.plain hflight.version data
    have hi0 : i = 0 := by
      rw [hwaiting, length_singleton] at hi
      omega
    subst hi0
    have hwork : work 0 v = ⟨files, some { t with
        waiting := []
        wal := t.wal.markMaterializedVersioned bucket key "" }⟩ := by
      unfold work
      rw [ht]
      simp only [hwaiting, getElem?_cons_zero, eraseIdx_cons_zero]
      unfold processMaterialize onFiles
      simp only [hflight.data, hflight.objectMeta, hrun]
    have hcap : (t.wal.markMaterializedVersioned bucket key "").segmentCapacity =
        t.wal.segmentCapacity := Wal.capacity_markMaterialized
    have hidle : ∀ t' ∈ (work 0 v).tier, t'.Roomy bucket key "" room ∧ t'.Idle := by
      intro t' ht'
      rw [hwork] at ht'
      cases ht'
      obtain ⟨hfits, hsmall⟩ := (h.tier t ht).1
      refine ⟨⟨by rw [hcap]; exact hfits, by rw [hcap]; exact hsmall⟩, rfl, fun k => ?_⟩
      rw [Wal.lookup_markMaterialized, hflight.pending]
      split_ifs
      · rfl
      · rfl
    refine ⟨⟨by rw [hwork]; exact hready, by rw [hwork]; exact hbucket,
      fun t' ht' => ⟨(hidle t' ht').1, Or.inl (hidle t' ht').2⟩⟩, ?_⟩
    refine stores_of_idle (fun t' ht' => (hidle t' ht').2) ?_
    rw [hwork]
    exact hreads

/-- What a writer of a volume with a log has: the bytes in memory, or a file that has them. -/
inductive Fed (bucket key : String) (threshold : Nat) (v : WalVolume env) (body : Bytes) :
    VolumeWriter → WalVolume env → Prop
  | buffered : Fed bucket key threshold v body
      (.wal ⟨bucket, key, "", threshold, .buffering body⟩) v
  | streamed {chunks : List Bytes} {file : LocalShardWriter} {files : LocalVolume}
      (hw : Writing bucket key none v.files chunks file files) (hflat : chunks.flatten = body)
      (hready : WriterReady bucket key file files) :
      Fed bucket key threshold v body (.wal ⟨bucket, key, "", threshold, .streaming file⟩)
        ⟨files, v.tier⟩

/-- One more chunk. -/
theorem Fed.chunk {threshold : Nat} {body : Bytes} {w : VolumeWriter} {v' : WalVolume env}
    (h : v.files.Ready bucket key) (hfed : Fed bucket key threshold v body w v') (data : Bytes) :
    ∃ w₁ v₁, writeChunk w data v' = (.ok w₁, v₁) ∧ Fed bucket key threshold v (body ++ data) w₁ v₁ := by
  cases hfed with
  | buffered =>
    by_cases hlong : walStreamingPromoteBytes < body.length + data.length
    · obtain ⟨file, files, hopen, hready⟩ := h.openShardWriter ha
      have hopened : Writing bucket key none v.files [] file files := .opened hopen
      by_cases hempty : body.isEmpty = true
      · obtain ⟨files₂, hchunk, hready₂⟩ := hready.writeChunk data
        refine ⟨_, _, ?_, .streamed (hopened.chunk hchunk) ?_ hready₂⟩
        · unfold writeChunk writeWalChunk
          simp only [bind_apply, onFiles, if_pos hlong, if_pos hempty, pure_apply, versionOption_empty,
            hopen, hchunk]
        · rw [isEmpty_iff.mp hempty]
          simp
      · obtain ⟨files₁, hchunk₁, hready₁⟩ := hready.writeChunk body
        obtain ⟨files₂, hchunk, hready₂⟩ := hready₁.writeChunk data
        refine ⟨_, _, ?_, .streamed ((hopened.chunk hchunk₁).chunk hchunk) (by simp) hready₂⟩
        unfold writeChunk writeWalChunk
        simp only [bind_apply, onFiles, if_pos hlong, if_neg hempty, pure_apply, versionOption_empty,
          hopen, hchunk₁, hchunk]
    · refine ⟨_, _, ?_, .buffered⟩
      unfold writeChunk writeWalChunk
      simp only [bind_apply, if_neg hlong, pure_apply]
  | streamed hw hflat hready =>
    obtain ⟨files₁, hchunk, hready₁⟩ := hready.writeChunk data
    refine ⟨_, _, ?_, .streamed (hw.chunk hchunk) (by rw [flatten_concat, hflat]) hready₁⟩
    unfold writeChunk writeWalChunk
    simp only [bind_apply, onFiles, hchunk, pure_apply]

theorem writing_wal (h : v.files.Ready bucket key) (ht : v.tier = some t) (chunks : List Bytes) :
    ∃ w v₁, Writing bucket key none v chunks w v₁ ∧
      Fed bucket key t.threshold v chunks.flatten w v₁ := by
  induction chunks using List.reverseRecOn with
  | nil =>
    refine ⟨_, v, .opened ?_, .buffered⟩
    change openShardWriter bucket key none v = _
    unfold openShardWriter
    rw [ht]
    rfl
  | append_singleton chunks data ih =>
    obtain ⟨w, v₁, hw, hfed⟩ := ih
    obtain ⟨w₂, v₂, hchunk, hfed₂⟩ := hfed.chunk ha h data
    rw [flatten_concat]
    exact ⟨w₂, v₂, .chunk hw hchunk, hfed₂⟩

/-- **A writer stores what it was fed**: in the log, or in the files. -/
theorem Fed.finalize {body : Bytes} {w : VolumeWriter} {v' : WalVolume env}
    (h : v.Ready bucket key room) (hroom : room ≤ 65535) (ht : v.tier = some t) (hidle : t.Idle)
    (hfed : Fed bucket key t.threshold v body w v') (hm : m.Plain) (hid : m.versionId = "")
    (hrec : Recorded env room m) :
    ∃ v₂, finalize w m v' = (.ok (), v₂) ∧ v₂.Ready bucket key room ∧ Stores bucket key body m v₂ := by
  have hidles : ∀ t' ∈ v.tier, t'.Idle := by
    intro t' ht'
    rw [ht] at ht'
    cases ht'
    exact hidle
  have hkeeps : ∀ {files : LocalVolume}, files.Ready bucket key → files.fs.isDir [bucket] = true →
      (⟨files, v.tier⟩ : WalVolume env).Ready bucket key room := fun hfiles hdir => ⟨hfiles, hdir, h.tier⟩
  cases hfed with
  | buffered =>
    by_cases hsmall : body.length ≤ t.threshold
    · obtain ⟨t', hlog, hready, hstores⟩ := h.logShard hroom ht hidle hm hid hrec hsmall
      refine ⟨{ v with tier := some t' }, ?_, hready, hstores⟩
      unfold WalVolume.finalize
      simp only [if_pos hsmall, ht, hlog]
    · obtain ⟨files, hrun, hready, hdir, hreads⟩ := storeFiles_ready ha h.files hm hid body
      refine ⟨⟨files, v.tier⟩, ?_, hkeeps hready hdir, stores_of_reads hm (stores_of_idle hidles hreads)⟩
      unfold WalVolume.finalize onFiles
      simp only [if_neg hsmall, hrun]
  | streamed hw hflat hready =>
    rename_i chunks file files
    obtain ⟨files₂, hrun, hready₂, hdir⟩ : ∃ files₂, Backend.finalize file m files = (.ok (), files₂) ∧ _ :=
      hready.finalize ha m
    have hreads := LawfulBackend.read_finalized hw hm hid hrun
    rw [hflat] at hreads
    refine ⟨⟨files₂, v.tier⟩, ?_, hkeeps hready₂ hdir, stores_of_reads hm (stores_of_idle hidles hreads)⟩
    change LocalVolume.finalize file m files = _ at hrun
    unfold WalVolume.finalize onFiles LocalVolume.finalizeStreamed
    simp only [hready.writer] at hrun ⊢
    simp only [hrun]

/-- **A volume with a log is healthy** while its log has nothing or only this object. -/
theorem healthy (hroom : room ≤ 65535) : StaysHealthy bucket key
    (fun v : WalVolume env => v.Ready bucket key room) (Recorded env room) where
  hasBucket h := LocalVolume.bucketExists_of_isDir ha.bucket_ok h.bucketDir
  stream {v} h hq chunks := by
    cases ht : v.tier with
    | none =>
      obtain ⟨w, files, hw, hfin⟩ :=
        (LocalVolume.healthy ha).stream ⟨h.files, h.bucketDir⟩ trivial chunks
      have hv : v = ⟨v.files, none⟩ := by rw [← ht]
      refine ⟨.file w, ⟨files, none⟩, by rw [hv]; exact writing_file hw, fun m hm hid _ => ?_⟩
      obtain ⟨files₂, hrun, ⟨hready, hdir⟩, hstores⟩ := hfin m hm hid trivial
      refine ⟨⟨files₂, none⟩, ?_, ⟨hready, hdir, nofun⟩, stores_of_files nofun hstores⟩
      change LocalVolume.finalize w m files = _ at hrun
      change onFiles (LocalVolume.finalize w m) _ = _
      unfold onFiles
      rw [hrun]
    | some t =>
      obtain ⟨w, v₁, hw, hfed⟩ := writing_wal ha h.files ht chunks
      exact ⟨w, v₁, hw, fun m hm hid hrec =>
        hfed.finalize ha h hroom ht (h.idle hq t ht) hm hid hrec⟩
  small {v} h hq data m hm hid hrec := by
    obtain ⟨files, hrun, ⟨hready, hdir⟩, hstores⟩ :=
      (LocalVolume.healthy ha).small ⟨h.files, h.bucketDir⟩ trivial data m hm hid trivial
    change LocalVolume.writeShard bucket key data m v.files = _ at hrun
    have hfiles : onFiles (LocalVolume.writeShard bucket key data m) v =
        (.ok (), (⟨files, v.tier⟩ : WalVolume env)) := by
      unfold onFiles
      rw [hrun]
    have hdone : ∃ v₁, onFiles (LocalVolume.writeShard bucket key data m) v = (.ok (), v₁) ∧
        v₁.Ready bucket key room ∧ Stores bucket key data m v₁ :=
      ⟨_, hfiles, ⟨hready, hdir, h.tier⟩,
        stores_of_files (fun t ht => (h.idle hq t ht).pending (bucket, key, "")) hstores⟩
    by_cases hlog : ∃ t ∈ v.tier, data.length ≤ t.threshold
    · obtain ⟨t, ht, hsmall⟩ := hlog
      obtain ⟨t', hlog, hready, hstores⟩ := h.logShard hroom ht (h.idle hq t ht) hm hid hrec hsmall
      refine ⟨{ v with tier := some t' }, ?_, hready, hstores⟩
      refine (writeShard_logged ha.bucket_ok ha.key_ok ht hsmall).trans ?_
      rw [hid, hlog]
    · have hfiled : ∀ t ∈ v.tier, t.threshold < data.length :=
        fun t ht => Nat.not_le.mp fun hle => hlog ⟨t, ht, hle⟩
      change ∃ v₁, writeShard bucket key data m v = _ ∧ _
      rw [writeShard_filed ha.bucket_ok ha.key_ok hfiled]
      exact hdone
  delete {v} h hq := by
    have hnone : ∀ t ∈ v.tier, t.wal.getVersioned bucket key "" = none := fun t ht => (hq t ht).1
    obtain ⟨⟨hready, hdir⟩, habsent, houtcome⟩ :=
      (LocalVolume.healthy ha).delete ⟨h.files, h.bucketDir⟩ trivial
    have habsents : ∀ {files : LocalVolume}, Absent bucket key files →
        Absent bucket key (⟨files, v.tier⟩ : WalVolume env) := by
      intro files hfiles
      obtain ⟨hread, hmmap, hstat⟩ := reads_of_none (v := ⟨files, v.tier⟩) hnone
      exact ⟨hstat.trans hfiles.stat, hread.trans hfiles.read, hmmap.trans hfiles.mmap⟩
    change (deleteObject bucket key v).2.Ready bucket key room ∧
      Absent bucket key (deleteObject bucket key v).2 ∧ ((deleteObject bucket key v).1 = _ ∨
        (deleteObject bucket key v).1 = _ ∧ _)
    rw [deleteObject_of_none hnone]
    exact ⟨⟨hready, hdir, h.tier⟩, habsents habsent, houtcome.imp_right (And.imp_right habsents)⟩
  work {v} h i := by
    have hidle : work i v = v → (work i v).Ready bucket key room ∧
        SameShard bucket key v (work i v) := by
      intro hsame
      rw [hsame]
      exact ⟨h, rfl, rfl, rfl⟩
    cases ht : v.tier with
    | none =>
      refine hidle ?_
      unfold work
      rw [ht]
    | some t =>
      rcases (h.tier t ht).2 with hnothing | ⟨data, m, e, hflight⟩
      · refine hidle ?_
        unfold work
        rw [ht]
        simp only [hnothing.waiting, getElem?_nil]
      · obtain ⟨hread, hmmap, hstat⟩ := stores_of_inFlight ht hflight
        obtain ⟨hready, hread', hmmap', hstat'⟩ := work_inFlight ha h ht hflight i
        exact ⟨hready, hread'.trans hread.symm, hmmap'.trans hmmap.symm, hstat'.trans hstat.symm⟩

end

end WalVolume

end Health

end Abixio
