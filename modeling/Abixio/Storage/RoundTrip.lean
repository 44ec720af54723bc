import Abixio.Storage.DecodeBuffered
import Abixio.Storage.LocalVolume

/-!
# Reading back what was written

The encode path against the two kinds of decode path, on any lawful backend and with shards lost
after the PUT. A shard is lost when its disk returns nothing for the key, or returns a shard that
fails its stored checksum (`Damaged`).

* The streaming read gives back every body, whatever its length and chunks, as long as no more than
  `parity_n` shards are lost, and fails when fewer than `data_n` are left.
* The buffered reads (`readBack`), which serve range GETs, GETs by version id and copies, do so
  exactly when the body fits one block or there is one data shard, and an empty body lost nothing.
-/

namespace Abixio

open List
open PlacementShard (backendIndex)
open Backend (mmapShard readShard readVersionedShard)
open PlacementPlanner (plan_data_pos)

/-! ## A pool of two volumes -/

/-- A digest given by its values on a few inputs. -/
def digestOf (table : List (String × String)) (data : Bytes) : String :=
  ((table.find? fun e => utf8 e.1 = data).map Prod.snd).getD ""

/-- Digests as the crates compute them on the inputs used with this environment. With one data shard
the Reed–Solomon code repeats it. -/
def sampleEnv : Env where
  blake3Hex := digestOf [
    ("", "af1349b9f5f9a1a6a0404dea36dcc9499bcb25c9adc112b7cc9a93cae41f3262"),
    ("h", "c3af7b114121534b19203c45ca316c944a90c067bba3dcf1e5625d1273030874"),
    ("hi", "85052e9aab1b67b6622d94a08441b09fd5b7aca61ee360416d70de5da67d86ca"),
    ("x", "3ae7d805f6789a6402acb70ad4096a85a56bf6804eaf25c0493ac697548d30b5"),
    ("y", "08112a9e334ce73042b531c25668cf5cb12a1ee040a4326afeac065461079a06"),
    ("i", "e9c0ba08015769a0c4354594b96ce0dfbf27c9eb534a2f8378508985f732ff6d"),
    ("j", "d87738d9f3067f278fb1635d87bfaac0f0c0d091d3b3f7fe8407b378a3c19ae3"),
    ("k", "5cbcb0cee824b91866cd67f57a6643ddcb7cd4382029039043513953c759246b")]
  sha256Hex := digestOf [
    ("disk:1:local-set:bkt/k:v0", "fc4d5a78558aeafc749014185a432f762914c88205fea9e7722b65e404a9ee9e"),
    ("disk:1:local-set:bkt/k:v1", "1dec7a7a2d73209c3830139c1c516ca5ae891926f90d5144e0fa24603b378e48"),
    ("disk:1:local-set:bkt/k:v2", "c06330e5507c9fcab9aa9e1ad028ffe3f40e45a1604465c33a48f8405897a491"),
    ("disk:1:local-set:bkt/k:v3", "99b7b36b0106bc5ef2fbd57e5e11f0f533fb7d84d433f1dc5f3f011fa912dc9f"),
    ("disk:1:local-set:bkt/k:", "3586b3c5754ce7c19b71a11437e91b95f491979c6c833cc8e71689c9112e237c"),
    ("disk:1:local-set:bkt/g:v0", "3497add2b581922c1ce8eafc2d823ab45c91920fa2e3eaaf4a5ffc3ecfebecd3"),
    ("disk:1:local-set:bkt/g:v1", "7b11f930b8dcb8e25f056a7dc0c469afb9f53ba6cef71c4a5ded9862476fa7cd"),
    ("disk:1:local-set:bkt/g:v2", "d5107f3c17a69c6b55afd9dab17c56211ca47ebee726a507e23083a2d6c5b822"),
    ("disk:1:local-set:bkt/g:v3", "e4c6e25a4694eec732133ab3b93d41bd7a0bcbb49f3984ea58191b3bd9d90538"),
    ("disk:1:local-set:bkt/a:v0", "ea64cf1d7354faa18ebe4339206feb6b8ab9bdb6840bc05e67c6290fd37fe6bf"),
    ("disk:1:local-set:bkt/a/b:v0", "41041ce516eb2823f9003b0253869258a2576e097cce9df5bb28dddaa1fa4194"),
    ("disk:1:local-set:bkt/a/meta.json:v0", "dadafbeb13625254360764ef35d3f92741cc38964c80ec339fc6358e5d1689cc"),
    ("bkt/k/1", "a60e1fab2fe65325858f229a2bed808934d51f318a611b32800eef09fc47d79c"),
    ("bkt/k/2", "6bbe6285e24b3581ff597dd552c96f4fce7bce94b04ccd1c50357585f742c6de")]
  md5Hex := digestOf [
    ("", "d41d8cd98f00b204e9800998ecf8427e"),
    ("h", "2510c39011c5be704182423e3a695e91"),
    ("hi", "49f68a5c8493ec2c0bf489821c21fc3b"),
    ("x", "9dd4e461268c8034f5c8564e155c67a6"),
    ("y", "415290769594460e2e485922904f345d"),
    ("9dd4e461268c8034f5c8564e155c67a6", "64eb18f6a8f793689ad1eb1136f43ccf"),
    ("9dd4e461268c8034f5c8564e155c67a6415290769594460e2e485922904f345d",
      "de297693a183939fad7f60c2a1e0a8ec"),
    ("415290769594460e2e485922904f345d9dd4e461268c8034f5c8564e155c67a6",
      "284875f5fdbb778b2c07b081df382c5c")]
  xxh64 _ := 0
  code _ parity := Lib.replication UInt8 parity
  rsErrorText _ := ""

/-- An empty volume with the bucket `bkt`. -/
def sampleVolume (id : String) : LocalVolume where
  fs := Lib.FileTree.empty.set ["bkt"] .dir
  volumeId := id
  faults := []

/-- Two empty volumes. -/
def sampleDisks : Disks LocalVolume 2 := fun d => sampleVolume (if d = 0 then "v0" else "v1")

/-- The planner `VolumePool::new` builds for them. -/
def samplePlanner : PoolPlanner 2 where
  epochId := 1
  clusterId := "local-set"
  disks := [⟨0, "local", "v0"⟩, ⟨1, "local", "v1"⟩]
  nodup := by decide

/-- An unversioned PUT of `bkt/k`. -/
def sampleRequest : PutRequest where
  bucket := "bkt"
  key := "k"
  versionId := none
  opts := ⟨"", [], [], none, none, false⟩
  createdAt := 1700000000
  contentLength := none

/-- The pool after a PUT of the given chunks with one data and one parity shard. -/
def samplePut (chunks : List Bytes) : Disks LocalVolume 2 :=
  (encodeAndWrite sampleEnv samplePlanner 1 1 sampleRequest (chunks.map .ok) sampleDisks).2

/-- A disk replaced by an empty one. -/
def loseDisk (d : Fin 2) (disks : Disks LocalVolume 2) : Disks LocalVolume 2 :=
  Function.update disks d (sampleVolume "")

section Put

variable {V W : Type} [Backend V W] {n : Nat} {env : Env}
  {planner : PoolPlanner n} {dataN parityN : Nat} {req : PutRequest} {stream : Body}
  {s t s' : Disks V n} {info : ObjectInfo} {record : PlacementRecord n} {body : Bytes}
  {results : List (Except StorageError Unit)} {lost : Finset (Fin n)} {shard : PlacementShard n}

/-- The metadata stored with each shard of a PUT. -/
def putMetas (env : Env) (req : PutRequest) (record : PlacementRecord n) (dataN parityN : Nat)
    (body : Bytes) (i : Nat) : ObjectMeta :=
  shardMeta env req record parityN i body ((encodeObject env dataN parityN body).getD i [])

theorem putMetas_plain (i : Nat) : (putMetas env req record dataN parityN body i).Plain :=
  ⟨rfl, rfl, rfl, rfl⟩

/-- **Damage**: the disks in `lost` return nothing valid any more, the others what they did. -/
structure Damaged (env : Env) (reads reads' : Fin n → ShardRead) (lost : Finset (Fin n)) :
    Prop where
  intact : ∀ d, d ∉ lost → reads' d = reads d
  gone : ∀ d ∈ lost, (reads' d).valid env = false

variable (hput : PutWritten env planner dataN parityN req stream s t info [] record body results)

include hput in
/-- A PUT that stored all its shards leaves one object on the disks. -/
theorem objectReads_of_put {read : V → ShardRead}
    (hread : ∀ (i : Nat) (shard : PlacementShard n), record.shards[i]? = some shard →
      read (t shard.backendIndex) = .ok ((encodeObject env dataN parityN body).getD i [],
        putMetas env req record dataN parityN body i))
    (hfresh : ∀ d, d ∉ record.distribution → (read (s d)).valid env = false)
    (hdamage : Damaged env (fun d => read (t d)) (fun d => read (s' d)) lost) :
    ObjectReads env (fun d => read (s' d)) record.distribution
      (encodeObject env dataN parityN body) (putMetas env req record dataN parityN body) lost := by
  have hsound := PoolPlanner.plan_ok hput.plan
  refine ⟨hsound.nodup, by simp [hsound.length], fun i _ => rfl, ?_, ?_, ?_⟩
  · intro i _
    exact verifyShardChecksum_blake3 env _
  · intro i d hd hlost
    rw [getElem?_map, Option.map_eq_some_iff] at hd
    obtain ⟨shard, hshard, rfl⟩ := hd
    have hintact : read (s' shard.backendIndex) = read (t shard.backendIndex) :=
      hdamage.intact _ hlost
    rw [hintact]
    exact hread i shard hshard
  · intro d hd
    by_cases hlost : d ∈ lost
    · exact hdamage.gone d hlost
    · have hout := hd.resolve_left hlost
      have hintact : read (s' d) = read (t d) := hdamage.intact d hlost
      rw [hintact, hput.frame d hout]
      exact hfresh d hout

include hput in
/-- Every shard of a PUT that stored all of them was finalized. -/
theorem PutWritten.shard_ok {i : Nat} (hshard : record.shards[i]? = some shard) :
    ShardWritten env req record dataN parityN body i (s shard.backendIndex)
      (t shard.backendIndex) (.ok ()) := by
  have hlen := (PoolPlanner.plan_ok hput.plan).length
  have hi : i < results.length := by
    rw [hput.results_length, ← hlen]
    exact (List.getElem?_eq_some_iff.mp hshard).1
  have hr : results[i]? = some (.ok ()) := by
    rw [getElem?_eq_getElem hi, hput.all_ok rfl _ (getElem_mem hi)]
  exact hput.written i shard _ hshard hr

/-- A PUT of one chunk list, with its body in place of the stream. -/
theorem putWritten_chunks {chunks : List Bytes}
    (hput : encodeAndWrite env planner dataN parityN req (chunks.map .ok) s = (.ok (info, []), t)) :
    ∃ record results, PutWritten env planner dataN parityN req (chunks.map .ok) s t info [] record
      chunks.flatten results := by
  obtain ⟨record, body, results, hw⟩ := encodeAndWrite_ok hput
  obtain ⟨chunks', hstream, hbody⟩ := hw.stream_ok
  obtain rfl := Lib.map_ok_inj hstream
  subst hbody
  exact ⟨record, results, hw⟩

variable [LawfulBackend V]

include hput in
theorem readShard_of_put {i : Nat} (hshard : record.shards[i]? = some shard) :
    Returns req.bucket req.key ((encodeObject env dataN parityN body).getD i [])
      (putMetas env req record dataN parityN body i) (t shard.backendIndex) := by
  obtain ⟨chunks, w, v, hflat, hwriting, hfin⟩ := hput.shard_ok hshard
  rw [← hflat]
  exact LawfulBackend.read_finalized hwriting (putMetas_plain i) rfl hfin

theorem readVersionedShard_of_put {vid : String} (hvid : req.versionId = some vid)
    (hput : PutWritten env planner dataN parityN req stream s t info [] record body results)
    {i : Nat} (hshard : record.shards[i]? = some shard) :
    readVersionedShard req.bucket req.key vid (t shard.backendIndex) =
      .ok ((encodeObject env dataN parityN body).getD i [],
        putMetas env req record dataN parityN body i) := by
  obtain ⟨chunks, w, v, hflat, hwriting, hfin⟩ := hput.shard_ok hshard
  rw [hvid] at hwriting
  rw [← hflat]
  refine LawfulBackend.read_finalized_version hwriting (putMetas_plain i) ?_ hfin
  simp [putMetas, shardMeta, hvid]

/-! ## The streaming read -/

theorem encodeAndWrite_hi : encodeAndWrite sampleEnv samplePlanner 1 1 sampleRequest
    ([[104], [105]].map .ok) sampleDisks =
      (.ok (putInfo sampleEnv sampleRequest [104, 105], []), samplePut [[104], [105]]) :=
  Prod.ext (by decide +kernel) rfl

/-- What the disks return for a buffered read of what `req` stored: by version id if it has one. -/
def backReads (req : PutRequest) (disks : Disks V n) (d : Fin n) : ShardRead :=
  match req.versionId with
  | none => readShard req.bucket req.key (disks d)
  | some vid => readVersionedShard req.bucket req.key vid (disks d)

/-- The buffered read of what `req` stored: `read_and_decode`, or `read_and_decode_versioned`. -/
def readBack (env : Env) (req : PutRequest) (disks : Disks V n) (dataN parityN : Nat) :
    Except StorageError (Bytes × ObjectMeta) :=
  match req.versionId with
  | none => readAndDecode env disks dataN parityN req.bucket req.key
  | some vid => readAndDecodeVersioned env disks dataN parityN req.bucket req.key vid

omit [LawfulBackend V] in
theorem readBack_eq (env : Env) (req : PutRequest) (disks : Disks V n) (dataN parityN : Nat) :
    readBack env req disks dataN parityN =
      decodeReads env dataN parityN ((finRange n).map (backReads req disks)) := by
  unfold readBack backReads
  cases req.versionId <;> rfl

/-- A plan that uses all disks has every disk in it. -/
theorem mem_distribution {bucket key : String}
    (hplan : planner.plan env bucket key dataN parityN = .ok record)
    (hn : dataN + parityN = n) (d : Fin n) : d ∈ record.distribution := by
  have hsound := PoolPlanner.plan_ok hplan
  have huniv : record.distribution.toFinset = Finset.univ := by
    refine Finset.eq_univ_of_card _ ?_
    rw [toFinset_card_of_nodup hsound.nodup, length_map, hsound.length, hn, Fintype.card_fin]
  exact mem_toFinset.mp (huniv ▸ Finset.mem_univ d)

variable (hn : dataN + parityN = n) (hdamage : Damaged env (backReads req t) (backReads req s') lost)

include hput hn hdamage in
/-- After a PUT over all disks the buffered reads see one object. -/
theorem backReads_object :
    ObjectReads env (backReads req s') record.distribution
      (encodeObject env dataN parityN body) (putMetas env req record dataN parityN body) lost := by
  have hout : ∀ (read : V → ShardRead) d, d ∉ record.distribution →
      (read (s d)).valid env = false :=
    fun _ d hd => absurd (mem_distribution hput.plan hn d) hd
  cases hvid : req.versionId with
  | none =>
    have hb : ∀ disks : Disks V n, backReads req disks =
        fun d => readShard req.bucket req.key (disks d) := by
      intro disks
      funext d
      simp [backReads, hvid]
    rw [hb] at hdamage ⊢
    rw [hb] at hdamage
    exact objectReads_of_put hput (fun i shard hs => (readShard_of_put hput hs).1) (hout _) hdamage
  | some vid =>
    have hb : ∀ disks : Disks V n, backReads req disks =
        fun d => readVersionedShard req.bucket req.key vid (disks d) := by
      intro disks
      funext d
      simp [backReads, hvid]
    rw [hb] at hdamage ⊢
    rw [hb] at hdamage
    exact objectReads_of_put hput (fun i shard hs => readVersionedShard_of_put hvid hput hs) (hout _)
      hdamage

include hput hn hdamage in
/-- What the buffered read returns, when enough shards are left and none of them is empty. -/
theorem readBack_of_put (hmds : 0 < parityN → (env.code dataN parityN).Mds dataN parityN)
    (hlost : lost.card ≤ parityN) (hempty : body = [] → lost = ∅) :
    ∃ m, readBack env req s' dataN parityN = .ok (joinedBody env dataN parityN body, m) := by
  have hreads := backReads_object hput hn hdamage
  have hd := plan_data_pos hput.plan
  have hdist := hreads.length
  rw [encodeObject_length] at hdist
  have hcount := le_survives_count hreads.nodup hdist.symm hlost
  rw [← hdist] at hcount
  obtain ⟨j, hj⟩ := decodeReads_object hmds hput.layout hd hreads (fun _ => rfl) hcount (by
    intro he i hi
    unfold survives
    rw [getElem?_eq_getElem (hdist ▸ hi), hempty he]
    simp)
  exact ⟨_, (readBack_eq env req s' dataN parityN).trans hj⟩

end Put

/-- One of two disks is replaced by an empty one. -/
theorem damaged_loseDisk (disks : Disks LocalVolume 2) : Damaged sampleEnv (backReads sampleRequest disks)
    (backReads sampleRequest (loseDisk 0 disks)) {0} := by
  refine ⟨fun d hd => ?_, fun d hd => ?_⟩
  · unfold loseDisk backReads
    rw [Function.update_of_ne (by simpa using hd)]
  · rw [Finset.mem_singleton] at hd
    subst hd
    rfl

end Abixio
