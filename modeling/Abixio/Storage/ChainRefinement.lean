import Abixio.Storage.VersionChain

/-!
# The version chain of one disk as a list

A history of one key on a `LocalVolume` without a write-ahead log (`src/storage/local_volume.rs`):
versioned writes through `LocalShardWriter` or `write_versioned_shard`, the delete markers of
`add_delete_marker`, and `delete_version_data`.

The abstract chain is a list of entries, newest first: a write or a marker comes in front, a delete
drops the entries of its id. The disk has the same chain in three places, which each operation changes
on its own: the list in `meta.json`, the latest flags in it, and a shard file per version.

* Ids are UUIDs. A marker's is new (`ChainOp.Fresh`); a write may also replace a version.
* The metadata of a write is that of a shard: no marker, nothing inline.
* A delete takes any text. One that is not a UUID is refused.

`ChainOp.runs_refine`: after every history the disk answers as the list says.
-/

namespace Abixio

open Lib List LocalVolume
open ObjectMeta (forgetLatest versionId)
open Act (bind_ok ok_bind)

variable {chain : List ChainEntry}

/-! ## The list -/

/-- One version, or a delete marker, which has no bytes. -/
structure ChainEntry where
  info : ObjectMeta
  data : Option Bytes
  valid : validateVersionId info.versionId = .ok ()
  marks : info.isDeleteMarker = data.isNone
  inlineNone : info.inlineData = none

namespace ChainEntry

/-- Does the entry have this id? -/
def hasId (id : String) (e : ChainEntry) : Bool := e.info.versionId = id

end ChainEntry

/-- The newest entry of an id. -/
def chainFind (chain : List ChainEntry) (id : String) : Option ChainEntry :=
  chain.find? (ChainEntry.hasId id)

/-- The newest entry with bytes. -/
def chainCurrent (chain : List ChainEntry) : Option ChainEntry :=
  chain.find? fun e => e.data.isSome

/-- Only the first version has its latest flag set. -/
def latestFirst : List ObjectMeta → List ObjectMeta
  | [] => []
  | m :: ms => { m with isLatest := true } :: ms.map ObjectMeta.forgetLatest

/-! ## Operations -/

/-- What a versioned write stores besides its bytes. -/
structure VersionWrite where
  id : String
  info : ObjectMeta
  valid : validateVersionId id = .ok ()
  notMarker : info.isDeleteMarker = false
  inlineNone : info.inlineData = none

/-- The operations of a history. -/
inductive ChainOp where
  /-- `open_shard_writer`, `write_chunk` for each chunk, `finalize`. -/
  | stream (w : VersionWrite) (chunks : List Bytes)
  /-- `write_versioned_shard`. -/
  | write (w : VersionWrite) (data : Bytes)
  /-- What `add_delete_marker` does on a disk. -/
  | marker (id : String) (valid : validateVersionId id = .ok ()) (now : Nat)
  /-- `delete_version_data`. -/
  | delete (id : String)

/-- The entry of a write. -/
def VersionWrite.entry (w : VersionWrite) (data : Bytes) : ChainEntry where
  info := { w.info with versionId := w.id }
  data := some data
  valid := w.valid
  marks := w.notMarker
  inlineNone := w.inlineNone

/-- The entry of a delete marker. -/
def markerEntry (id : String) (valid : validateVersionId id = .ok ()) (now : Nat) : ChainEntry where
  info := deleteMarker id now
  data := none
  valid := valid
  marks := rfl
  inlineNone := rfl

namespace ChainOp

/-- The operation on the list. -/
def apply : ChainOp → List ChainEntry → List ChainEntry
  | stream w chunks, chain => w.entry chunks.flatten :: chain
  | write w data, chain => w.entry data :: chain
  | marker id valid now, chain => markerEntry id valid now :: chain
  | delete id, chain => chain.filter fun e => !e.hasId id

/-- The operation on the disk. -/
def run (bucket key : String) : ChainOp → VolAct LocalVolume Unit
  | stream w chunks => do
    let writer ← LocalVolume.openShardWriter bucket key (some w.id)
    let writer ← chunks.foldlM LocalVolume.writeChunk writer
    LocalVolume.finalize writer w.info
  | write w data => LocalVolume.writeVersionedShard bucket key w.id data w.info
  | marker id _ now => pushMarker bucket key (deleteMarker id now)
  | delete id => LocalVolume.deleteVersionData bucket key id

/-- The id of a new marker is not in use. -/
def Fresh (chain : List ChainEntry) : ChainOp → Prop
  | marker id _ _ => chainFind chain id = none
  | _ => True

/-- A history in which all markers are new. -/
def AllFresh : List ChainEntry → List ChainOp → Prop
  | _, [] => True
  | chain, op :: ops => op.Fresh chain ∧ AllFresh (op.apply chain) ops

/-- The list after a history. -/
def applyAll (ops : List ChainOp) (chain : List ChainEntry) : List ChainEntry :=
  ops.foldl (fun chain op => op.apply chain) chain

/-- The disk after a history. -/
def runAll (bucket key : String) (ops : List ChainOp) (v : LocalVolume) : LocalVolume :=
  ops.foldl (fun v op => (op.run bucket key v).2) v

end ChainOp

/-! ## What the disk answers -/

/-- **The disk answers as the list says.** Metadata is compared without the latest flag, which
`versions` gives for all entries. -/
structure AnswersChain (bucket key : String) (chain : List ChainEntry) (v : LocalVolume) : Prop where
  versions : storedVersions bucket key v = latestFirst (chain.map ChainEntry.info)
  version : ∀ id e data, chainFind chain id = some e → e.data = some data →
    (LocalVolume.readVersionedShard bucket key id v).map (fun r => (r.1, r.2.forgetLatest)) =
      .ok (data, e.info.forgetLatest)
  gone : ∀ id, chainFind chain id = none →
    LocalVolume.readVersionedShard bucket key id v = .error .objectNotFound
  current : ∀ e data, chainCurrent chain = some e → e.data = some data →
    (LocalVolume.readShard bucket key v).map (fun r => (r.1, r.2.forgetLatest)) =
      .ok (data, e.info.forgetLatest)
  empty : chainCurrent chain = none → LocalVolume.readShard bucket key v = .error .objectNotFound

/-- Where `meta.json` is. -/
def metaPath (bucket key : String) : Path := objectPath bucket key ++ ["meta.json"]

/-- Nothing is in the way of the key's files. -/
structure Room (bucket key : String) (v : LocalVolume) : Prop where
  calm : v.faults = []
  clear : ∀ q, q <+: objectPath bucket key → v.fs.read q = none
  versionDirs : ∀ id, id ≠ "meta.json" → v.fs.read (objectPath bucket key ++ [id]) = none
  versionFiles : ∀ id, v.fs.isDir (versionFile bucket key id) = false
  metaFree : v.fs.isDir (metaPath bucket key) = false
  parents : ∀ id, (v.fs.read (versionFile bucket key id)).isSome →
    v.fs.isDir (objectPath bucket key ++ [id]) = true

/-- The files of the key hold the chain. No entry behind a marker has the marker's id. -/
structure HoldsChain (bucket key : String) (chain : List ChainEntry) (v : LocalVolume) : Prop where
  apart : chain.Pairwise fun a b => a.data = none → a.info.versionId ≠ b.info.versionId
  room : Room bucket key v
  stored : storedVersions bucket key v = latestFirst (chain.map ChainEntry.info)
  there : v.fs.isDir (objectPath bucket key) = true ∨ readMetaFile v.fs (metaPath bucket key) = none
  shards : ∀ id, v.fs.read (versionFile bucket key id) =
    ((chainFind chain id).bind ChainEntry.data).map FileData.bytes

/-- A volume on which the key has no file yet. -/
structure Untouched (bucket key : String) (v : LocalVolume) : Prop where
  calm : v.faults = []
  clear : ∀ q, q <+: objectPath bucket key → v.fs.read q = none
  nothing : ∀ q, objectPath bucket key <+: q → q ≠ objectPath bucket key → v.fs.lookup q = none

section Paths

variable {bucket key id id' : String}

theorem versionFile_inj (h : versionFile bucket key id = versionFile bucket key id') : id = id' := by
  simpa [versionFile] using h

theorem versionFile_ne_metaPath : versionFile bucket key id ≠ metaPath bucket key := by
  intro h
  have hlen := congrArg List.length h
  simp [versionFile, metaPath] at hlen

theorem versionFile_ne_dir : versionFile bucket key id ≠ objectPath bucket key ++ [id'] := by
  intro h
  have hlen := congrArg List.length h
  simp [versionFile] at hlen

theorem dir_prefix_versionFile :
    objectPath bucket key ++ [id] <+: versionFile bucket key id' ↔ id = id' := by
  constructor
  · intro h
    have heq := prefix_of_prefix_length_le h
      (prefix_append (objectPath bucket key ++ [id']) ["shard.dat"]) (by simp)
    have hid := heq.eq_of_length (by simp)
    simpa using hid
  · rintro rfl
    exact prefix_append _ _

theorem dir_ne_metaPath (h : id ≠ "meta.json") :
    objectPath bucket key ++ [id] ≠ metaPath bucket key := by
  intro he
  exact h (by simpa [metaPath] using he)

/-- No version is called `meta.json`. -/
theorem ne_metaJson (h : validateVersionId id = .ok ()) : id ≠ "meta.json" := by
  rintro rfl
  exact absurd h (by decide)

end Paths

/-! ## File system calls on the key's files -/

variable {id : String}

namespace Room

variable {bucket key : String} {v v' : LocalVolume} {p : Path}

/-- The files the operations write: none of them is where a directory of the key is. -/
def IsKeyFile (bucket key : String) (p : Path) : Prop :=
  p = metaPath bucket key ∨ ∃ id, p = versionFile bucket key id

theorem IsKeyFile.not_above (hp : IsKeyFile bucket key p) : ¬ p <+: objectPath bucket key := by
  intro h
  have hlen := h.length_le
  rcases hp with rfl | ⟨id, rfl⟩
  · simp [metaPath] at hlen
  · simp [versionFile] at hlen

theorem IsKeyFile.ne_dir (hp : IsKeyFile bucket key p) (hid : id ≠ "meta.json") :
    objectPath bucket key ++ [id] ≠ p := by
  rcases hp with rfl | ⟨id', rfl⟩
  · exact dir_ne_metaPath hid
  · exact versionFile_ne_dir.symm

variable (h : Room bucket key v)

include h in
/-- A change of one such file leaves room. -/
theorem of_file (hp : IsKeyFile bucket key p) (hparent : v.fs.isDir p.dropLast = true)
    (hcalm : v'.faults = []) (hread : ∀ q, q ≠ p → v'.fs.read q = v.fs.read q)
    (hdirs : ∀ q, v'.fs.isDir q = v.fs.isDir q) : Room bucket key v' := by
  refine ⟨hcalm, fun q hq => ?_, fun id hid => ?_, fun id => ?_, ?_, fun id hfile => ?_⟩
  · rw [hread q fun he => hp.not_above (he ▸ hq)]
    exact h.clear q hq
  · rw [hread _ (hp.ne_dir hid)]
    exact h.versionDirs id hid
  · rw [hdirs]
    exact h.versionFiles id
  · rw [hdirs]
    exact h.metaFree
  · rw [hdirs]
    by_cases hid : versionFile bucket key id = p
    · rw [← hid, versionFile, dropLast_concat] at hparent
      exact hparent
    · rw [hread _ hid] at hfile
      exact h.parents id hfile

include h in
theorem isDir_file (hp : IsKeyFile bucket key p) : v.fs.isDir p = false := by
  rcases hp with rfl | ⟨id, rfl⟩
  · exact h.metaFree
  · exact h.versionFiles id

/-- One file was written, which leaves room. -/
structure Wrote (bucket key : String) (p : Path) (content : FileData) (v v' : LocalVolume) : Prop where
  room : Room bucket key v'
  file : v'.fs.read p = some content
  others : ∀ q, q ≠ p → v'.fs.read q = v.fs.read q
  dirs : ∀ q, v'.fs.isDir q = v.fs.isDir q

include h in
/-- `fs::write` of such a file. -/
theorem writeWhole {dir : Path} {name : String} {content : FileData}
    (hp : IsKeyFile bucket key (dir ++ [name])) (hdir : v.fs.isDir dir = true) :
    ∃ v', Abixio.writeWhole (dir ++ [name]) content v = (.ok (), v') ∧
      Wrote bucket key (dir ++ [name]) content v v' := by
  obtain ⟨v', hw, hcalm⟩ : ∃ v', Abixio.writeWhole (dir ++ [name]) content v = (.ok (), v') ∧
      v'.faults = [] := writeWhole_healthy h.calm hdir (h.isDir_file hp)
  obtain ⟨hfile, hread, hdirs⟩ := writeWhole_ok hw
  refine ⟨v', hw, h.of_file hp ?_ hcalm hread hdirs, hfile, hread, hdirs⟩
  rw [dropLast_concat]
  exact hdir

include h in
/-- `File::create` of such a file. -/
theorem createFile {dir : Path} {name : String} (hp : IsKeyFile bucket key (dir ++ [name]))
    (hdir : v.fs.isDir dir = true) : ∃ v', Abixio.createFile (dir ++ [name]) v = (.ok (), v') ∧
      Wrote bucket key (dir ++ [name]) (.bytes []) v v' := by
  obtain ⟨fs, hfs⟩ : ∃ fs, v.fs.writeFile (dir ++ [name]) (FileData.bytes []) = some fs :=
    FileTree.writeFile_isSome hdir (h.isDir_file hp)
  have hread := fun q (hq : q ≠ dir ++ [name]) => FileTree.writeFile_read_of_ne hfs hq
  have hdirs := FileTree.writeFile_isDir hfs
  refine ⟨{ v with fs := fs }, fsCall_healthy h.calm hfs,
    h.of_file hp ?_ h.calm hread hdirs, FileTree.writeFile_read hfs, hread, hdirs⟩
  rw [dropLast_concat]
  exact hdir

/-- The chunks of a writer, one after another. -/
theorem writeChunks {w : LocalShardWriter} (hp : versionFile bucket key id = p) (hw : w.path = p) :
    ∀ (chunks : List Bytes) {v : LocalVolume} {written : Bytes}, Room bucket key v →
      v.fs.read p = some (.bytes written) →
      ∃ v', chunks.foldlM writeChunk w v = (.ok w, v') ∧
        Wrote bucket key p (.bytes (written ++ chunks.flatten)) v v'
  | [], v, written, h, hfile => ⟨v, rfl, h, by simpa using hfile, fun _ _ => rfl, fun _ => rfl⟩
  | chunk :: chunks, v, written, h, hfile => by
    have happend : writeAll w.path chunk v =
        (.ok (), { v with fs := v.fs.modifyFile p (FileData.append chunk) }) := by
      rw [hw]
      exact fsCall_healthy h.calm rfl
    have hcall : writeChunk w chunk v =
        (.ok w, { v with fs := v.fs.modifyFile p (FileData.append chunk) }) :=
      bind_ok happend
    have hread : ∀ q, q ≠ p → (v.fs.modifyFile p (FileData.append chunk)).read q = v.fs.read q :=
      fun q hq => FileTree.modifyFile_read_of_ne hq
    have hdirs : ∀ q, (v.fs.modifyFile p (FileData.append chunk)).isDir q = v.fs.isDir q :=
      fun q => FileTree.modifyFile_isDir q
    have hroom : Room bucket key { v with fs := v.fs.modifyFile p (FileData.append chunk) } := by
      refine h.of_file (Or.inr ⟨id, hp.symm⟩) ?_ h.calm hread hdirs
      subst hp
      rw [versionFile, dropLast_concat]
      exact h.parents id (by rw [hfile]; rfl)
    obtain ⟨v', hrun, hroom', hfile', hread', hdirs'⟩ := writeChunks hp hw chunks hroom
      (FileTree.modifyFile_read hfile)
    refine ⟨v', ?_, hroom', ?_, fun q hq => (hread' q hq).trans (hread q hq),
      fun q => (hdirs' q).trans (hdirs q)⟩
    · rw [foldlM_cons, bind_ok hcall]
      exact hrun
    · rw [hfile', flatten_cons, append_assoc]

include h in
/-- `create_dir_all` of the key's directory or of a version's. -/
theorem createDirAll {names : List String} (hnames : names = [] ∨ ∃ id, id ≠ "meta.json" ∧ names = [id]) :
    ∃ v', Abixio.createDirAll (objectPath bucket key ++ names) v = (.ok (), v') ∧
      Room bucket key v' ∧ (∀ q, v'.fs.read q = v.fs.read q) ∧
      v'.fs.isDir (objectPath bucket key ++ names) = true ∧
      v'.fs.isDir (objectPath bucket key) = true := by
  have hclear : ∀ q, q <+: objectPath bucket key ++ names → v.fs.read q = none := by
    intro q hq
    rcases hnames with rfl | ⟨id, hid, rfl⟩
    · rw [append_nil] at hq
      exact h.clear q hq
    · rcases prefix_concat_iff.mp hq with rfl | hq
      · exact h.versionDirs id hid
      · exact h.clear q hq
  obtain ⟨fs, hfs⟩ : ∃ fs, v.fs.createDirAll (objectPath bucket key ++ names) = some fs :=
    FileTree.createDirs_isSome hclear
  have hread := FileTree.createDirAll_read hfs
  have hfree : ∀ p, IsKeyFile bucket key p → ¬ p <+: objectPath bucket key ++ names := by
    intro p hp hpre
    rcases hnames with rfl | ⟨id, hid, rfl⟩
    · rw [append_nil] at hpre
      exact hp.not_above hpre
    · rcases prefix_concat_iff.mp hpre with rfl | hpre
      · exact hp.ne_dir hid rfl
      · exact hp.not_above hpre
  refine ⟨{ v with fs := fs }, fsCall_healthy h.calm hfs, ⟨h.calm, ?_, ?_, ?_, ?_, ?_⟩, hread,
    FileTree.createDirAll_isDir hfs (prefix_refl _),
    FileTree.createDirAll_isDir hfs (prefix_append _ _)⟩
  · exact fun q hq => (hread q).trans (h.clear q hq)
  · exact fun id hid => (hread _).trans (h.versionDirs id hid)
  · exact fun id => (FileTree.createDirAll_isDir_of_not_prefix hfs
      (hfree _ (Or.inr ⟨id, rfl⟩))).trans (h.versionFiles id)
  · exact (FileTree.createDirAll_isDir_of_not_prefix hfs (hfree _ (Or.inl rfl))).trans h.metaFree
  · intro id hfile
    rw [hread] at hfile
    exact FileTree.createDirAll_isDir_of hfs (h.parents id hfile)

include h in
/-- `remove_dir_all` of a version's directory, if there is one. -/
theorem removeVersion (id : String) : ∃ v', (if v.fs.isDir (objectPath bucket key ++ [id]) then
        fsCall (fun fs => fs.removeDirAll (objectPath bucket key ++ [id])) else pure ()) v =
          (.ok (), v') ∧ Room bucket key v' ∧ v'.fs.read (versionFile bucket key id) = none ∧
      (∀ id', id' ≠ id → v'.fs.read (versionFile bucket key id') =
        v.fs.read (versionFile bucket key id')) ∧
      (id ≠ "meta.json" → v'.fs.read (metaPath bucket key) = v.fs.read (metaPath bucket key)) ∧
      v'.fs.isDir (objectPath bucket key) = v.fs.isDir (objectPath bucket key) := by
  cases hdir : v.fs.isDir (objectPath bucket key ++ [id]) with
  | false =>
    refine ⟨v, rfl, h, ?_, fun _ _ => rfl, fun _ => rfl, rfl⟩
    by_contra hfile
    have hparent := h.parents id (Option.isSome_iff_ne_none.mpr hfile)
    rw [hdir] at hparent
    cases hparent
  | true =>
    obtain ⟨fs, hfs⟩ : ∃ fs, v.fs.removeDirAll (objectPath bucket key ++ [id]) = some fs := by
      unfold FileTree.removeDirAll
      rw [if_pos ⟨by simp, hdir⟩]
      exact ⟨_, rfl⟩
    have hkept : ∀ q, ¬ objectPath bucket key ++ [id] <+: q →
        fs.read q = v.fs.read q ∧ fs.isDir q = v.fs.isDir q :=
      fun q hq => FileTree.removeDirAll_of_not_prefix hfs hq
    have hgone : ∀ q, objectPath bucket key ++ [id] <+: q → fs.read q = none ∧ fs.isDir q = false := by
      intro q hq
      refine ⟨FileTree.removeDirAll_read hfs hq, ?_⟩
      have hne : q ≠ [] := by
        rintro rfl
        simp at hq
      unfold FileTree.isDir
      rw [FileTree.removeDirAll_lookup hfs hne, if_pos hq]
    have hread : ∀ q, v.fs.read q = none → fs.read q = none := by
      intro q hq
      by_cases hp : objectPath bucket key ++ [id] <+: q
      · exact (hgone q hp).1
      · exact (hkept q hp).1.trans hq
    have hdirs : ∀ q, v.fs.isDir q = false → fs.isDir q = false := by
      intro q hq
      by_cases hp : objectPath bucket key ++ [id] <+: q
      · exact (hgone q hp).2
      · exact (hkept q hp).2.trans hq
    have hother : ∀ id', id' ≠ id → ¬ objectPath bucket key ++ [id] <+: versionFile bucket key id' :=
      fun id' hid hp => hid (dir_prefix_versionFile.mp hp).symm
    refine ⟨{ v with fs := fs }, ?_, ⟨h.calm, ?_, ?_, ?_, ?_, ?_⟩,
      (hgone _ (dir_prefix_versionFile.mpr rfl)).1, fun id' hid => (hkept _ (hother id' hid)).1, ?_,
      (hkept _ (not_prefix_concat _ _)).2⟩
    · rw [if_pos rfl]
      exact fsCall_healthy h.calm hfs
    · exact fun q hq => hread q (h.clear q hq)
    · exact fun id' hid => hread _ (h.versionDirs id' hid)
    · exact fun id' => hdirs _ (h.versionFiles id')
    · exact hdirs _ h.metaFree
    · intro id' hfile
      by_cases hid : id' = id
      · simp [hid, (hgone _ (dir_prefix_versionFile.mpr rfl)).1] at hfile
      · rw [(hkept _ (hother id' hid)).1] at hfile
        refine (hkept _ fun hp => hid ?_).2.trans (h.parents id' hfile)
        have heq := hp.eq_of_length (by simp)
        simpa using heq.symm
    · intro hid
      refine (hkept _ fun hp => ?_).1
      have heq := hp.eq_of_length (by simp [metaPath])
      exact dir_ne_metaPath hid heq

end Room

/-! ## The operations on the files -/

variable {data : Bytes} {l : List ObjectMeta} {e : ChainEntry}

section Operations

variable {bucket key : String} {v v' : LocalVolume}

/-- A version was pushed: its file and `meta.json` were written, and no other version's file. -/
structure Pushed (bucket key : String) (w : VersionWrite) (data : Bytes) (v v' : LocalVolume) :
    Prop where
  room : Room bucket key v'
  file : v'.fs.read (versionFile bucket key w.id) = some (.bytes data)
  metaJson : readMetaFile v'.fs (metaPath bucket key) = some (LocalVolume.pushVersion bucket key
    (readMetaFile v.fs (metaPath bucket key)) { w.info with isLatest := true, versionId := w.id })
  others : ∀ id, id ≠ w.id →
    v'.fs.read (versionFile bucket key id) = v.fs.read (versionFile bucket key id)
  there : v'.fs.isDir (objectPath bucket key) = true

/-- Pushing the version once its file is there. -/
theorem pushed_of_file (w : VersionWrite) {v₁ : LocalVolume} (h : Room bucket key v₁)
    (hdir : v₁.fs.isDir (objectPath bucket key) = true)
    (hfile : v₁.fs.read (versionFile bucket key w.id) = some (.bytes data))
    (hread : ∀ q, q ≠ versionFile bucket key w.id → v₁.fs.read q = v.fs.read q) :
    ∃ v', writeMetaFile (metaPath bucket key) (pushVersion bucket key
        (readMetaFile v₁.fs (metaPath bucket key))
          { w.info with isLatest := true, versionId := w.id }) v₁ = (.ok (), v') ∧
      Pushed bucket key w data v v' := by
  have hsame : readMetaFile v₁.fs (metaPath bucket key) = readMetaFile v.fs (metaPath bucket key) := by
    unfold readMetaFile
    rw [hread _ versionFile_ne_metaPath.symm]
  obtain ⟨v', hrun, hroom, hmeta, hothers, hdirs⟩ := h.writeWhole (Or.inl rfl) hdir
  refine ⟨v', hrun, hroom, ?_, ?_, fun id hid => ?_, (hdirs _).trans hdir⟩
  · rw [hothers _ versionFile_ne_metaPath]
    exact hfile
  · rw [← hsame]
    exact readMetaFile_eq hmeta
  · rw [hothers _ versionFile_ne_metaPath, hread _ fun he => hid (versionFile_inj he)]

variable (ha : Accepted bucket key none)

include ha in
theorem writeVersionedShard_pushed (h : Room bucket key v) (w : VersionWrite) (data : Bytes) :
    ∃ v', writeVersionedShard bucket key w.id data w.info v = (.ok (), v') ∧
      Pushed bucket key w data v v' := by
  obtain ⟨v₁, hmk, hroom₁, hread₁, hdir₁, hobj₁⟩ :=
    h.createDirAll (Or.inr ⟨w.id, ne_metaJson w.valid, rfl⟩)
  obtain ⟨v₂, hwrite, hroom₂, hfile₂, hread₂, hdirs₂⟩ :
      ∃ v₂, writeWhole (versionFile bucket key w.id) (.bytes data) v₁ = (.ok (), v₂) ∧
        Room.Wrote bucket key (versionFile bucket key w.id) (.bytes data) v₁ v₂ :=
    hroom₁.writeWhole (Or.inr ⟨w.id, rfl⟩) hdir₁
  obtain ⟨v', hpush, hpushed⟩ := pushed_of_file w hroom₂ ((hdirs₂ _).trans hobj₁) hfile₂
    fun q hq => (hread₂ q hq).trans (hread₁ q)
  refine ⟨v', ?_, hpushed⟩
  have hdir : versionDir bucket key w.id = .ok (objectPath bucket key ++ [w.id]) := by
    unfold versionDir
    rw [w.valid, ha.objectDir]
    rfl
  have hpath : versionShardPath bucket key w.id = .ok (versionFile bucket key w.id) := by
    unfold versionShardPath
    rw [hdir]
    rfl
  unfold writeVersionedShard
  rw [hdir, hpath, ha.objectMetaPath, ok_bind, bind_ok hmk, ok_bind, bind_ok hwrite, ok_bind]
  exact hpush

include ha in
theorem stream_pushed (h : Room bucket key v) (w : VersionWrite) (chunks : List Bytes) :
    ∃ v', (ChainOp.stream w chunks).run bucket key v = (.ok (), v') ∧
      Pushed bucket key w chunks.flatten v v' := by
  have ha' : Accepted bucket key (some w.id) :=
    ⟨ha.bucket_ok, ha.key_ok, fun id hid => Option.some.inj hid ▸ w.valid⟩
  obtain ⟨v₁, hmk, hroom₁, hread₁, hdir₁, hobj₁⟩ :=
    h.createDirAll (Or.inr ⟨w.id, ne_metaJson w.valid, rfl⟩)
  obtain ⟨v₂, hcreate, hroom₂, hfile₂, hread₂, hdirs₂⟩ :
      ∃ v₂, createFile (versionFile bucket key w.id) v₁ = (.ok (), v₂) ∧
        Room.Wrote bucket key (versionFile bucket key w.id) (.bytes []) v₁ v₂ :=
    hroom₁.createFile (Or.inr ⟨w.id, rfl⟩) hdir₁
  obtain ⟨v₃, hchunks, hroom₃, hfile₃, hread₃, hdirs₃⟩ :=
    Room.writeChunks (w := ⟨bucket, key, some w.id, versionFile bucket key w.id⟩) rfl rfl chunks
      hroom₂ hfile₂
  obtain ⟨v', hpush, hpushed⟩ := pushed_of_file w hroom₃
    ((hdirs₃ _).trans ((hdirs₂ _).trans hobj₁)) hfile₃
    fun q hq => (hread₃ q hq).trans ((hread₂ q hq).trans (hread₁ q))
  refine ⟨v', ?_, hpushed⟩
  have hopen : openShardWriter bucket key (some w.id) v =
      (.ok ⟨bucket, key, some w.id, versionFile bucket key w.id⟩, v₂) := by
    rw [openShardWriter_eq ha', shardFile, dropLast_concat, bind_ok hmk]
    exact bind_ok hcreate
  refine (bind_ok hopen).trans ((bind_ok hchunks).trans ?_)
  rw [finalize_healthy ha hroom₃.calm]
  exact hpush

/-! ## One operation -/

/-- Pushing a version in front clears the other flags. -/
theorem pushVersion_latestFirst {mf : Option ObjectMetaFile} (m : ObjectMeta)
    (h : (mf.map ObjectMetaFile.versions).getD [] = latestFirst l) :
    (pushVersion bucket key mf { m with isLatest := true }).versions = latestFirst (m :: l) := by
  have hclear : (latestFirst l).map forgetLatest = l.map forgetLatest := by
    cases l with
    | nil => rfl
    | cons m' l =>
      rw [latestFirst, map_cons, map_map]
      rfl
  have hversions : (mf.getD ⟨bucket, key, []⟩).versions = latestFirst l := by
    rw [← h]
    cases mf with
    | none => rfl
    | some mf => rfl
  have hpush : (pushVersion bucket key mf { m with isLatest := true }).versions =
      { m with isLatest := true } ::
        (mf.getD ⟨bucket, key, []⟩).versions.map forgetLatest := rfl
  rw [hpush, hversions, hclear]
  rfl

theorem filter_forget (id : String) (l : List ObjectMeta) :
    (l.map forgetLatest).filter (fun m => m.versionId ≠ id) =
      (l.filter fun m => m.versionId ≠ id).map forgetLatest :=
  filter_map

/-- Dropping a version hands the flag to the first one left. -/
theorem dropVersion_latestFirst {mf : ObjectMetaFile} (id : String)
    (h : mf.versions = latestFirst l) :
    (dropVersion id mf).versions = latestFirst (l.filter fun m => m.versionId ≠ id) := by
  unfold dropVersion
  rw [h]
  cases l with
  | nil => rfl
  | cons m l =>
    by_cases hm : m.versionId = id
    · rw [latestFirst, filter_cons, filter_cons, if_neg (by simpa using hm),
        if_neg (by simpa using hm), filter_forget]
      cases l.filter fun m => m.versionId ≠ id with
      | nil => rfl
      | cons m' l' => rfl
    · rw [latestFirst, filter_cons, filter_cons, if_pos (by simpa using hm),
        if_pos (by simpa using hm), filter_forget]
      rfl

theorem storedVersions_eq (v : LocalVolume) : storedVersions bucket key v =
    ((readMetaFile v.fs (metaPath bucket key)).map ObjectMetaFile.versions).getD [] := by
  unfold storedVersions metaPath
  cases readMetaFile v.fs (metaFile bucket key) with
  | none => rfl
  | some mf => rfl

theorem chainFind_cons (e : ChainEntry) (id : String) :
    chainFind (e :: chain) id = if e.info.versionId = id then some e else chainFind chain id := by
  unfold chainFind
  unfold ChainEntry.hasId
  by_cases h : e.info.versionId = id
  · simp [h]
  · simp [h]

theorem chainFind_filter (id id' : String) : chainFind (chain.filter fun e => !e.hasId id) id' =
      if id' = id then none else chainFind chain id' := by
  unfold chainFind
  rw [find?_filter]
  split_ifs with h
  · rw [find?_eq_none]
    intro e _
    simp [h]
  · congr 1
    funext e
    by_cases he : e.hasId id' = true
    · have hne : e.hasId id = false := by
        simp only [ChainEntry.hasId, decide_eq_true_eq] at he
        simp [ChainEntry.hasId, he, h]
      simp [he, hne]
    · simp [he]

variable (h : HoldsChain bucket key chain v)

include h in
/-- **A pushed version** comes in front of the chain. -/
theorem Pushed.holds {w : VersionWrite} (hp : Pushed bucket key w data v v') :
    HoldsChain bucket key (w.entry data :: chain) v' := by
  refine ⟨pairwise_cons.mpr ⟨fun e _ hnone => ?_, h.apart⟩, hp.room, ?_, Or.inl hp.there,
    fun id => ?_⟩
  · cases hnone
  · have hstored := h.stored
    rw [storedVersions_eq] at hstored ⊢
    rw [hp.metaJson]
    exact pushVersion_latestFirst { w.info with versionId := w.id } hstored
  · rw [chainFind_cons]
    by_cases hid : id = w.id
    · have hself : (w.entry data).info.versionId = w.id := rfl
      rw [hid, hp.file, if_pos hself]
      rfl
    · have hother : (w.entry data).info.versionId ≠ id := fun he => hid he.symm
      rw [hp.others id hid, h.shards id, if_neg hother]

include ha h in
/-- **A marker** comes in front of the chain. -/
theorem marker_holds (valid : validateVersionId id = .ok ()) (now : Nat)
    (hfresh : chainFind chain id = none) :
    ∃ v', pushMarker bucket key (deleteMarker id now) v = (.ok (), v') ∧
      HoldsChain bucket key (markerEntry id valid now :: chain) v' := by
  obtain ⟨v₁, hmk, hroom₁, hread₁, -, hobj₁⟩ := h.room.createDirAll (Or.inl rfl)
  rw [append_nil] at hmk
  obtain ⟨v', hwrite, hroom, hmeta, hothers, hdirs⟩ :
      ∃ v', writeWhole (metaPath bucket key)
          (.metaJson ⟨bucket, key, deleteMarker id now :: clearedVersions bucket key v⟩) v₁ =
            (.ok (), v') ∧ Room.Wrote bucket key (metaPath bucket key) _ v₁ v' :=
    hroom₁.writeWhole (Or.inl rfl) hobj₁
  refine ⟨v', ?_, pairwise_cons.mpr ⟨fun e he _ => ?_, h.apart⟩, hroom, ?_,
    Or.inl ((hdirs _).trans hobj₁), fun id' => ?_⟩
  · have hrun := pushMarker_eq ha (deleteMarker id now) v
    rw [bind_ok hmk] at hrun
    exact hrun.trans hwrite
  · have hne := find?_eq_none.mp hfresh e he
    unfold ChainEntry.hasId at hne
    rw [decide_eq_true_eq] at hne
    exact fun heq => hne heq.symm
  · have hpush : (pushVersion bucket key
        (some ⟨bucket, key, latestFirst (chain.map ChainEntry.info)⟩)
          { deleteMarker id now with isLatest := true }).versions =
        latestFirst (deleteMarker id now :: chain.map ChainEntry.info) :=
      pushVersion_latestFirst (deleteMarker id now) rfl
    rw [storedVersions_eq, readMetaFile_eq hmeta, clearedVersions_eq ha, h.stored]
    exact hpush
  · rw [hothers _ versionFile_ne_metaPath, hread₁, h.shards id', chainFind_cons]
    by_cases hid : (markerEntry id valid now).info.versionId = id'
    · have hid' : id = id' := hid
      rw [if_pos hid, ← hid', hfresh]
      rfl
    · rw [if_neg hid]

theorem eq_nil_of_latestFirst (h : latestFirst l = []) : l = [] := by
  cases l with
  | nil => rfl
  | cons m l => cases h

include ha in
/-- `delete_version_data` once the directory is removed. -/
theorem deleteVersionData_eq (hid : validateVersionId id = .ok ()) {v₁ : LocalVolume}
    (hremove : (if v.fs.isDir (objectPath bucket key ++ [id]) then
      fsCall (fun fs => fs.removeDirAll (objectPath bucket key ++ [id])) else pure ()) v = (.ok (), v₁)) :
    deleteVersionData bucket key id v = (match readMetaFile v₁.fs (metaPath bucket key) with
        | some mf => do
          let _ ← Act.attempt (writeMetaFile (metaPath bucket key) (dropVersion id mf))
          pure ()
        | none => pure () : VolAct LocalVolume Unit) v₁ := by
  have hdir : versionDir bucket key id = .ok (objectPath bucket key ++ [id]) := by
    unfold versionDir
    rw [hid, ha.objectDir]
    rfl
  unfold deleteVersionData
  rw [hdir, ha.objectMetaPath, ok_bind]
  refine (bind_ok (show Act.read _ v = (.ok _, v) from rfl)).trans ?_
  cases hisDir : v.fs.isDir (objectPath bucket key ++ [id]) with
  | true =>
    rw [hisDir] at hremove
    refine (bind_ok hremove).trans ?_
    rfl
  | false =>
    rw [hisDir] at hremove
    cases hremove
    rfl

include ha h in
/-- **A delete** drops the entries of its id. -/
theorem delete_holds (hid : validateVersionId id = .ok ()) :
    ∃ v', deleteVersionData bucket key id v = (.ok (), v') ∧
      HoldsChain bucket key (chain.filter fun e => !e.hasId id) v' := by
  obtain ⟨v₁, hremove, hroom₁, hgone₁, hothers₁, hmeta₁, hobj₁⟩ := h.room.removeVersion id
  have hread₁ : readMetaFile v₁.fs (metaPath bucket key) = readMetaFile v.fs (metaPath bucket key) := by
    unfold readMetaFile
    rw [hmeta₁ (ne_metaJson hid)]
  have hshards : ∀ id', v₁.fs.read (versionFile bucket key id') =
      ((chainFind (chain.filter fun e => !e.hasId id) id').bind ChainEntry.data).map FileData.bytes := by
    intro id'
    rw [chainFind_filter]
    by_cases he : id' = id
    · rw [he, hgone₁, if_pos rfl]
      rfl
    · rw [if_neg he, hothers₁ id' he, h.shards id']
  have hinfo : (chain.filter fun e => !e.hasId id).map ChainEntry.info =
      (chain.map ChainEntry.info).filter fun m => m.versionId ≠ id := by
    rw [filter_map]
    congr 1
    refine filter_congr fun e _ => ?_
    simp [ChainEntry.hasId]
  have hstored := h.stored
  rw [storedVersions_eq] at hstored
  rw [deleteVersionData_eq ha hid hremove, hread₁]
  cases hmf : readMetaFile v.fs (metaPath bucket key) with
  | none =>
    rw [hmf] at hstored hread₁
    have hempty : chain = [] := map_eq_nil_iff.mp (eq_nil_of_latestFirst hstored.symm)
    refine ⟨v₁, rfl, h.apart.sublist filter_sublist, hroom₁, ?_, Or.inr hread₁, hshards⟩
    rw [storedVersions_eq, hread₁, hempty]
    rfl
  | some mf =>
    rw [hmf] at hstored
    have hthere : v₁.fs.isDir (objectPath bucket key) = true := by
      rcases h.there with hthere | hnone
      · exact hobj₁.trans hthere
      · simp [hmf] at hnone
    obtain ⟨v', hwrite, hroom, hmeta, hothers, hdirs⟩ :
        ∃ v', writeWhole (metaPath bucket key) (.metaJson (dropVersion id mf)) v₁ =
            (.ok (), v') ∧ Room.Wrote bucket key (metaPath bucket key) _ v₁ v' :=
      hroom₁.writeWhole (Or.inl rfl) hthere
    refine ⟨v', ?_, h.apart.sublist filter_sublist, hroom, ?_, Or.inl ((hdirs _).trans hthere),
      fun id' => ?_⟩
    · have hattempt : Act.attempt (writeMetaFile (metaPath bucket key)
          (dropVersion id mf)) v₁ = (.ok (.ok ()), v') := by
        rw [Act.attempt_apply]
        unfold writeMetaFile
        rw [hwrite]
      exact bind_ok hattempt
    · rw [storedVersions_eq, readMetaFile_eq hmeta, hinfo]
      exact dropVersion_latestFirst id hstored
    · rw [hothers _ versionFile_ne_metaPath]
      exact hshards id'

end Operations

namespace ChainOp

variable {bucket key : String} {v : LocalVolume}

/-- Only a delete of a text that is no id is refused. -/
def refused : ChainOp → Bool
  | delete id => (validateVersionId id).isOk = false
  | _ => false

/-- **One operation**: the disk follows the list. -/
theorem run_holds (ha : Accepted bucket key none) (h : HoldsChain bucket key chain v) (op : ChainOp)
    (hfresh : op.Fresh chain) : (op.refused = false → (op.run bucket key v).1 = .ok ()) ∧
      HoldsChain bucket key (op.apply chain) (op.run bucket key v).2 := by
  cases op with
  | stream w chunks =>
    obtain ⟨v', hrun, hpushed⟩ := stream_pushed ha h.room w chunks
    rw [hrun]
    exact ⟨fun _ => rfl, hpushed.holds h⟩
  | write w data =>
    obtain ⟨v', hrun, hpushed⟩ := writeVersionedShard_pushed ha h.room w data
    rw [show (write w data).run bucket key v = (.ok (), v') from hrun]
    exact ⟨fun _ => rfl, hpushed.holds h⟩
  | marker id valid now =>
    obtain ⟨v', hrun, hholds⟩ := marker_holds ha h valid now hfresh
    rw [show (marker id valid now).run bucket key v = (.ok (), v') from hrun]
    exact ⟨fun _ => rfl, hholds⟩
  | delete id =>
    cases hid : validateVersionId id with
    | ok u =>
      obtain ⟨v', hrun, hholds⟩ := delete_holds ha h hid
      rw [show (delete id).run bucket key v = (.ok (), v') from hrun]
      exact ⟨fun _ => rfl, hholds⟩
    | error e =>
      have hdir : versionDir bucket key id = .error e := by
        unfold versionDir
        rw [hid]
        rfl
      have hrun : deleteVersionData bucket key id v = (.error e, v) := by
        unfold deleteVersionData
        rw [hdir]
        rfl
      have hall : (delete id).apply chain = chain := by
        refine filter_eq_self.mpr fun e' _ => ?_
        have hne : e'.info.versionId ≠ id := by
          rintro rfl
          rw [e'.valid] at hid
          cases hid
        simpa [ChainEntry.hasId] using hne
      refine ⟨fun hok => ?_, ?_⟩
      · have hok : decide ((validateVersionId id).isOk = false) = false := hok
        rw [hid] at hok
        cases hok
      · rw [show (delete id).run bucket key v = (.error e, v) from hrun, hall]
        exact h

theorem allFresh_append : ∀ {ops ops' : List ChainOp} {chain : List ChainEntry},
    AllFresh chain (ops ++ ops') → AllFresh chain ops ∧ AllFresh (applyAll ops chain) ops'
  | [], _, _, h => ⟨trivial, h⟩
  | _ :: _, _, _, h => ⟨⟨h.1, (allFresh_append h.2).1⟩, (allFresh_append h.2).2⟩

/-- **A history**: the disk follows the list throughout. -/
theorem runAll_holds (ha : Accepted bucket key none) {ops : List ChainOp} :
    ∀ {chain : List ChainEntry} {v : LocalVolume}, HoldsChain bucket key chain v →
      AllFresh chain ops → HoldsChain bucket key (applyAll ops chain) (runAll bucket key ops v) := by
  induction ops with
  | nil => exact fun h _ => h
  | cons op ops ih =>
    intro chain v h hfresh
    exact ih (run_holds ha h op hfresh.1).2 hfresh.2

end ChainOp

/-! ## The answers -/

section Answers

variable {bucket key : String} {v : LocalVolume}

theorem find?_latestFirst {p : ObjectMeta → Bool} (hp : ∀ m, p m.forgetLatest = p m)
    (l : List ObjectMeta) :
    ((latestFirst l).find? p).map forgetLatest = (l.find? p).map forgetLatest := by
  have hmap : ∀ l : List ObjectMeta, (l.map forgetLatest).find? p =
      (l.find? p).map forgetLatest := by
    intro l
    rw [find?_map]
    congr 2
    funext m
    exact hp m
  rw [← hmap, ← hmap]
  congr 1
  cases l with
  | nil => rfl
  | cons m l =>
    rw [latestFirst, map_cons, map_map]
    rfl

variable (ha : Accepted bucket key none) (h : HoldsChain bucket key chain v)

include h in
/-- The stored version of an id. -/
theorem find?_stored (id : String) :
    ((storedVersions bucket key v).find? fun m => m.versionId = id).map forgetLatest =
      (chainFind chain id).map fun e => e.info.forgetLatest := by
  rw [h.stored, find?_latestFirst fun _ => rfl, find?_map, Option.map_map]
  rfl

include h in
/-- The stored version a plain read finds. -/
theorem find?_current :
    ((storedVersions bucket key v).find? fun m => !m.isDeleteMarker).map forgetLatest =
      (chainCurrent chain).map fun e => e.info.forgetLatest := by
  rw [h.stored, find?_latestFirst fun _ => rfl, find?_map, Option.map_map]
  congr 2
  funext e
  rw [Function.comp_apply, e.marks, Option.not_isNone]

/-- The newest entry with bytes is the newest of its id. -/
theorem chainFind_current : ∀ {chain : List ChainEntry} {e : ChainEntry},
    (chain.Pairwise fun a b => a.data = none → a.info.versionId ≠ b.info.versionId) →
    chainCurrent chain = some e → chainFind chain e.info.versionId = some e
  | [], _, _, h => by cases h
  | a :: chain, e, hapart, h => by
    rw [pairwise_cons] at hapart
    unfold chainCurrent at h
    rw [find?_cons] at h
    rw [chainFind_cons]
    cases hdata : a.data with
    | some data =>
      rw [hdata] at h
      cases h
      rw [if_pos rfl]
    | none =>
      rw [hdata] at h
      have hne := hapart.1 e (mem_of_find?_eq_some h) hdata
      rw [if_neg hne]
      exact chainFind_current hapart.2 h

include ha in
theorem versionShardPath_valid (hid : validateVersionId id = .ok ()) :
    versionShardPath bucket key id = .ok (versionFile bucket key id) := by
  unfold versionShardPath versionDir
  rw [hid, ha.objectDir]
  rfl

include h in
/-- The shard of the newest entry of an id. -/
theorem HoldsChain.readShardFile (he : chainFind chain id = some e) (hdata : e.data = some data) :
    readShardFile (versionFile bucket key id) v = .ok data := by
  refine readShardFile_eq ?_
  rw [h.shards id, he, Option.bind_some, hdata, Option.map_some]

include h in
/-- A chain that is not empty is in a `meta.json`. -/
theorem HoldsChain.metaJson (hne : chain ≠ []) :
    ∃ mf, readMetaFile v.fs (metaFile bucket key) = some mf ∧
      storedVersions bucket key v = mf.versions ∧ v.fs.isDir (objectPath bucket key) = true := by
  have hstored := h.stored
  have hthere := h.there
  unfold storedVersions at hstored ⊢
  unfold metaPath at hthere
  cases hmf : readMetaFile v.fs (metaFile bucket key) with
  | none =>
    rw [hmf] at hstored
    exact absurd (map_eq_nil_iff.mp (eq_nil_of_latestFirst hstored.symm)) hne
  | some mf =>
    rw [hmf] at hthere
    refine ⟨mf, rfl, rfl, ?_⟩
    rcases hthere with hthere | hnone
    · exact hthere
    · cases hnone

include ha h in
theorem HoldsChain.answers_version (he : chainFind chain id = some e) (hdata : e.data = some data) :
    (readVersionedShard bucket key id v).map (fun r => (r.1, r.2.forgetLatest)) =
      .ok (data, e.info.forgetLatest) := by
  have hvalid : validateVersionId id = .ok () := by
    have hid := find?_some he
    unfold ChainEntry.hasId at hid
    rw [decide_eq_true_eq] at hid
    rw [← hid]
    exact e.valid
  have hfind := find?_stored h id
  rw [he, Option.map_some] at hfind
  obtain ⟨m, hm, hforget⟩ := Option.map_eq_some_iff.mp hfind
  rw [readVersionedShard_eq ha, hm]
  simp only [versionShardPath_valid ha hvalid, Except.bind, h.readShardFile he hdata, Except.map,
    hforget]

include ha h in
theorem HoldsChain.answers_current (he : chainCurrent chain = some e) (hdata : e.data = some data) :
    (readShard bucket key v).map (fun r => (r.1, r.2.forgetLatest)) =
      .ok (data, e.info.forgetLatest) := by
  have hne : chain ≠ [] := by
    rintro rfl
    cases he
  obtain ⟨mf, hmf, hstored, hdir⟩ := h.metaJson hne
  have hfind := find?_current h
  rw [he, Option.map_some, hstored] at hfind
  obtain ⟨m, hm, hforget⟩ := Option.map_eq_some_iff.mp hfind
  have hid : m.versionId = e.info.versionId := (congrArg versionId hforget :)
  have hinline : m.inlineData = none :=
    ((congrArg ObjectMeta.inlineData hforget :) : m.inlineData = e.info.inlineData).trans e.inlineNone
  have hcur : currentVersion bucket key v = .ok m := by
    unfold currentVersion
    rw [ha.objectDir]
    simp only [bind, Except.bind, hdir, if_true, hmf, hm]
  have hpath : shardPathOf bucket key m = .ok (versionFile bucket key e.info.versionId) := by
    have hvalid := e.valid
    unfold shardPathOf
    rw [hid, if_neg, versionShardPath_valid ha hvalid]
    intro hempty
    rw [String.isEmpty_iff] at hempty
    rw [hempty] at hvalid
    exact absurd hvalid (by decide)
  unfold readShard
  simp only [hcur, bind, Except.bind, hinline, hpath,
    h.readShardFile (chainFind_current h.apart he) hdata, Except.map, hforget]

include ha h in
/-- **The answers follow from the files.** -/
theorem HoldsChain.answers : AnswersChain bucket key chain v := by
  refine ⟨h.stored, fun id e data => h.answers_version ha, fun id hnone => ?_,
    fun e data => h.answers_current ha, fun hnone => ?_⟩
  · have hfind := find?_stored h id
    rw [hnone, Option.map_none, Option.map_eq_none_iff] at hfind
    rw [readVersionedShard_eq ha, hfind]
  · have hfind := find?_current h
    rw [hnone, Option.map_none, Option.map_eq_none_iff] at hfind
    have hcur : currentVersion bucket key v = .error .objectNotFound := by
      unfold storedVersions at hfind
      unfold currentVersion
      rw [ha.objectDir]
      simp only [bind, Except.bind]
      split_ifs
      · cases hmf : readMetaFile v.fs (metaFile bucket key) with
        | none => rfl
        | some mf =>
          rw [hmf] at hfind
          simp only at hfind ⊢
          rw [hfind]
      · rfl
    unfold readShard
    rw [hcur]
    rfl

/-- A volume without files of the key holds the empty chain. -/
theorem Untouched.holds (h : Untouched bucket key v) : HoldsChain bucket key [] v := by
  have hnone : ∀ names, names ≠ [] → v.fs.lookup (objectPath bucket key ++ names) = none := by
    intro names hne
    exact h.nothing _ (prefix_append _ _) fun he => hne (append_right_eq_self.mp he)
  have hread : ∀ names, names ≠ [] → v.fs.read (objectPath bucket key ++ names) = none := by
    intro names hne
    unfold FileTree.read
    rw [hnone names hne]
  have hdir : ∀ names, names ≠ [] → v.fs.isDir (objectPath bucket key ++ names) = false := by
    intro names hne
    unfold FileTree.isDir
    rw [hnone names hne]
  have hfile : ∀ id, v.fs.read (versionFile bucket key id) = none := by
    intro id
    rw [versionFile, append_assoc]
    exact hread _ (cons_ne_nil _ _)
  have hmeta : readMetaFile v.fs (metaPath bucket key) = none := by
    unfold readMetaFile metaPath
    rw [hread _ (cons_ne_nil _ _)]
  refine ⟨List.Pairwise.nil, ⟨h.calm, h.clear, fun id _ => hread _ (cons_ne_nil _ _), fun id => ?_,
    hdir _ (cons_ne_nil _ _), fun id hsome => ?_⟩, ?_, Or.inr hmeta, hfile⟩
  · rw [versionFile, append_assoc]
    exact hdir _ (cons_ne_nil _ _)
  · simp [hfile id] at hsome
  · rw [storedVersions_eq, hmeta]
    rfl

/-- **The version chain of a disk refines the list**: after every history of writes, markers and
deletes no operation failed but a refused delete, and the disk answers as the list says. -/
theorem ChainOp.runs_refine (hb : validateBucketName bucket = .ok ())
    (hk : validateObjectKey key = .ok ()) (hv : Untouched bucket key v) {ops : List ChainOp}
    (hfresh : AllFresh [] ops) :
    (∀ before op after, ops = before ++ op :: after → op.refused = false →
      (op.run bucket key (runAll bucket key before v)).1 = .ok ()) ∧
      AnswersChain bucket key (applyAll ops []) (runAll bucket key ops v) := by
  have ha : Accepted bucket key none := ⟨hb, hk, fun _ h => by cases h⟩
  refine ⟨?_, (runAll_holds ha hv.holds hfresh).answers ha⟩
  rintro before op after rfl hok
  obtain ⟨hbefore, hop⟩ := allFresh_append hfresh
  exact (run_holds ha (runAll_holds ha hv.holds hbefore) op hop.1).1 hok

/-- The metadata of a shard of `size` bytes on one disk. -/
def chainShard (size : Nat) : ObjectMeta :=
  ⟨size, "", "text/plain", 0, ⟨0, 0, 1, ["v1"]⟩, "", [], [], "", true, false, [], none⟩

/-- Two versions and a marker, then the newer version is deleted. -/
def chainHistory : List ChainOp :=
  [.stream ⟨"11111111-1111-4111-8111-111111111111", chainShard 3, by decide, rfl, rfl⟩ [[1, 2], [3]],
    .write ⟨"22222222-2222-4222-8222-222222222222", chainShard 1, by decide, rfl, rfl⟩ [4],
    .marker "33333333-3333-4333-8333-333333333333" (by decide) 7,
    .delete "22222222-2222-4222-8222-222222222222"]

theorem runs_refine_history :
    (ChainOp.applyAll chainHistory []).map ChainEntry.data = [none, some [1, 2, 3]] ∧
      AnswersChain "bucket" "a/b" (ChainOp.applyAll chainHistory [])
        (ChainOp.runAll "bucket" "a/b" chainHistory ⟨FileTree.empty, "", []⟩) := by
  have hempty : Untouched "bucket" "a/b" ⟨FileTree.empty, "", []⟩ := by
    refine ⟨rfl, fun q _ => ?_, fun q hq _ => ?_⟩
    · cases q with
      | nil => rfl
      | cons s q => rfl
    · cases q with
      | nil => simp [objectPath] at hq
      | cons s q => rfl
  have hfresh : ChainOp.AllFresh [] chainHistory :=
    ⟨trivial, trivial, Option.isNone_iff_eq_none.mp (by decide +kernel), trivial, trivial⟩
  exact ⟨by decide +kernel, (ChainOp.runs_refine (by decide) (by decide) hempty hfresh).2⟩

end Answers

end Abixio
