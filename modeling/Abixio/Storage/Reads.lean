import Abixio.Storage.VolumePool

/-!
# What the reads of a key depend on

The reads of a key (`get_object`, `get_object_stream`, `head_object`, `get_object_version` and
`list_object_versions` in `src/storage/volume_pool.rs`) see a disk only through its answers for that
key. `SameAnswers` is that a disk answers as another one does, `SameReads` that a pool does, and
`sameReads` derives the second from the first.

The read cache is not part of it: an entry may go as long as it says what the disks say
(`Coherent`).
-/

namespace Abixio

open Lib
open Backend (bucketExists mmapShard readBucketSettings readPart readShard statObject)
open Act (bind_apply query_apply read_apply)

variable {V W : Type} [Backend V W] {bucket key : String}

/-- The two disk states answer alike for a key. -/
structure SameAnswers {V W : Type} [Backend V W] (bucket key : String) (v v' : V) : Prop where
  read : readShard bucket key v' = readShard bucket key v
  mmap : mmapShard bucket key v' = mmapShard bucket key v
  stat : statObject bucket key v' = statObject bucket key v
  versions : Backend.readMetaVersions bucket key v' = Backend.readMetaVersions bucket key v
  version : ∀ vid, Backend.readVersionedShard bucket key vid v' =
    Backend.readVersionedShard bucket key vid v
  part : ∀ number, readPart bucket key number v' = readPart bucket key number v
  settings : readBucketSettings bucket v' = readBucketSettings bucket v
  listOk : ∀ keyPrefix, validateObjectPrefix keyPrefix = .ok () →
    (Backend.listObjects bucket keyPrefix v').isOk = (Backend.listObjects bucket keyPrefix v).isOk
  listed : ∀ keyPrefix keys keys', Backend.listObjects bucket keyPrefix v = .ok keys →
    Backend.listObjects bucket keyPrefix v' = .ok keys' → (key ∈ keys' ↔ key ∈ keys)

/-- The part of it that a GET of the key needs. -/
structure SameContent {V W : Type} [Backend V W] (bucket key : String) (v v' : V) : Prop where
  read : readShard bucket key v' = readShard bucket key v
  mmap : mmapShard bucket key v' = mmapShard bucket key v
  stat : statObject bucket key v' = statObject bucket key v
  part : ∀ number, readPart bucket key number v' = readPart bucket key number v
  settings : readBucketSettings bucket v' = readBucketSettings bucket v

section SameContent

variable {v v' v'' : V}

theorem SameAnswers.content (h : SameAnswers bucket key v v') : SameContent bucket key v v' :=
  ⟨h.read, h.mmap, h.stat, h.part, h.settings⟩

theorem SameContent.refl (bucket key : String) (v : V) : SameContent bucket key v v :=
  ⟨rfl, rfl, rfl, fun _ => rfl, rfl⟩

theorem SameContent.trans (h : SameContent bucket key v v') (h' : SameContent bucket key v' v'') :
    SameContent bucket key v v'' :=
  ⟨h'.read.trans h.read, h'.mmap.trans h.mmap, h'.stat.trans h.stat,
    fun number => (h'.part number).trans (h.part number), h'.settings.trans h.settings⟩

end SameContent

/-- The bytes a stream delivers, or its first error. -/
def streamBytes (items : DecodeStream) : Except StorageError Bytes :=
  (items.mapM id).map List.flatten

section Reads

variable {n : Nat}

/-- What a client of `get_object_stream` ends up with. -/
def streamedObject (env : Env) (bucket key : String) (p : Pool V n) :
    Except StorageError (ObjectInfo × Except StorageError Bytes) :=
  (getObjectStream env bucket key p).1.map fun r => (r.1, streamBytes r.2)

/-- The versions `list_object_versions` gives for a key. -/
def ListsVersions (bucket keyPrefix key : String) (versions : List ObjectMeta) (p : Pool V n) :
    Prop :=
  ∃ listing, listObjectVersions bucket keyPrefix p = .ok listing ∧ (key, versions) ∈ listing

/-- **The reads of a key return the same on both pools.** -/
structure SameReads (env : Env) (bucket key : String) (p p' : Pool V n) : Prop where
  get : (getObject env bucket key p').1 = (getObject env bucket key p).1
  stream : streamedObject env bucket key p' = streamedObject env bucket key p
  head : headObject bucket key p' = headObject bucket key p
  version : ∀ vid, getObjectVersion env bucket key vid p' = getObjectVersion env bucket key vid p
  listing : ∀ keyPrefix versions, ListsVersions bucket keyPrefix key versions p' ↔
    ListsVersions bucket keyPrefix key versions p

/-- The read cache's entry for a key, if a read would use it, says what the disks say. -/
def Coherent (env : Env) (bucket key : String) (p : Pool V n) : Prop :=
  cachedWrite bucket key p = none → ∀ e, cachedRead bucket key p = some e →
    (getStored env bucket key p).1 = .ok (e.data, e.info) ∧
      (streamStored env bucket key p).1.map (fun r => (r.1, streamBytes r.2)) =
        .ok (e.info, .ok e.data)

variable {env : Env} {p p' : Pool V n}

/-- A bucket is found as long as no disk loses it. -/
theorem headBucket_of_le (hmono : ∀ d, bucketExists bucket (p.disks d) = true →
      bucketExists bucket (p'.disks d) = true)
    (h : headBucket bucket p = .ok true) : headBucket bucket p' = .ok true := by
  have hsub : ((List.finRange n).filter fun d => bucketExists bucket (p.disks d)).length ≤
      ((List.finRange n).filter fun d => bucketExists bucket (p'.disks d)).length :=
    List.Sublist.length_le (List.monotone_filter_right _ fun d hd => hmono d hd)
  obtain ⟨⟨⟩, hv, h⟩ := except_bind_eq_ok.mp h
  unfold headBucket
  rw [hv]
  simp only [bind, Except.bind, Except.ok.injEq, decide_eq_true_eq] at h ⊢
  omega

theorem checkKey_congr (hb : headBucket bucket p' = headBucket bucket p)
    (versionId : Option String) :
    checkKey bucket key versionId p' = checkKey bucket key versionId p := by
  unfold checkKey
  rw [hb]

section Disks

variable (hd : ∀ d, SameContent bucket key (p.disks d) (p'.disks d))
include hd

theorem bucketEc_congr : bucketEc bucket p' = bucketEc bucket p := by
  unfold bucketEc
  simp only [fun d => (hd d).settings]

theorem firstStat_congr : firstStat bucket key p' = firstStat bucket key p := by
  unfold firstStat
  simp only [fun d => (hd d).stat]

theorem objectEc_congr (hw : cachedWrite bucket key p' = cachedWrite bucket key p) :
    objectEc bucket key p' = objectEc bucket key p := by
  unfold objectEc readEcFromMeta
  rw [hw, firstStat_congr hd, bucketEc_congr hd]

theorem readAndDecode_congr (dataN parityN : Nat) :
    readAndDecode env p'.disks dataN parityN bucket key =
      readAndDecode env p.disks dataN parityN bucket key := by
  unfold readAndDecode
  simp only [fun d => (hd d).read]

theorem readAndDecodeStream_congr (dataN parityN : Nat) :
    readAndDecodeStream env p'.disks dataN parityN bucket key =
      readAndDecodeStream env p.disks dataN parityN bucket key := by
  unfold readAndDecodeStream
  simp only [fun d => (hd d).mmap]

theorem readAndDecodeMultipart_congr (m : ObjectMeta) :
    readAndDecodeMultipart env p'.disks bucket key m =
      readAndDecodeMultipart env p.disks bucket key m := by
  have hpart : decodePart env p'.disks bucket key = decodePart env p.disks bucket key := by
    funext part
    unfold decodePart
    simp only [fun d => (hd d).part]
  unfold readAndDecodeMultipart
  rw [hpart]

end Disks

/-! ## The answers of the reads -/

theorem getDecoded_fst (p : Pool V n) : (getDecoded env bucket key p).1 =
    (readAndDecode env p.disks (objectEc bucket key p).1 (objectEc bucket key p).2 bucket key).map
      fun r => (r.1, r.2.toInfo bucket key) := by
  unfold getDecoded populate
  simp only [bind_apply, read_apply, query_apply]
  cases readAndDecode env p.disks (objectEc bucket key p).1 (objectEc bucket key p).2 bucket key
  · rfl
  · rfl

theorem getMultipart_fst (m : ObjectMeta) (p : Pool V n) : (getMultipart env bucket key m p).1 =
      (readAndDecodeMultipart env p.disks bucket key m).map fun data => (data, m.toInfo bucket key) := by
  unfold getMultipart
  simp only [bind_apply, query_apply]
  cases readAndDecodeMultipart env p.disks bucket key m
  · rfl
  · rfl

/-- The slices of the first mapped shard. -/
theorem streamMapped_fst (p : Pool V n) : (streamMapped bucket key p).1 =
    match (List.finRange n).findSome? fun d =>
      (mmapShard bucket key (p.disks d)).toOption with
    | none => .error .objectNotFound
    | some r => .ok (r.2.toInfo bucket key, (Lib.blocks mmapChunkSize r.1).map .ok) := by
  unfold streamMapped populate
  simp only [bind_apply, read_apply]
  cases (List.finRange n).findSome? fun d => (mmapShard bucket key (p.disks d)).toOption
  · rfl
  · rfl

theorem streamDecoded_fst (p : Pool V n) : (streamDecoded env bucket key p).1 =
    if (objectEc bucket key p).1 = 1 ∧ (objectEc bucket key p).2 = 0 then
      (streamMapped bucket key p).1 else
      (readAndDecodeStream env p.disks (objectEc bucket key p).1 (objectEc bucket key p).2 bucket
        key).map fun r => (r.1.toInfo bucket key, r.2) := by
  unfold streamDecoded
  simp only [bind_apply, read_apply]
  split_ifs
  · rfl
  · simp only [bind_apply, query_apply]
    cases readAndDecodeStream env p.disks (objectEc bucket key p).1 (objectEc bucket key p).2 bucket
      key
    · rfl
    · rfl

theorem getStored_fst (p : Pool V n) : (getStored env bucket key p).1 =
    match firstStat bucket key p with
    | some m =>
      if m.isMultipart then (getMultipart env bucket key m p).1 else (getDecoded env bucket key p).1
    | none => (getDecoded env bucket key p).1 := by
  unfold getStored
  simp only [bind_apply, read_apply]
  cases firstStat bucket key p with
  | none => rfl
  | some m =>
    simp only
    split_ifs
    · rfl
    · rfl

theorem streamStored_fst (p : Pool V n) : (streamStored env bucket key p).1 =
    match firstStat bucket key p with
    | some m =>
      if m.isMultipart then (getMultipart env bucket key m p).1.map fun r => (r.2, [.ok r.1])
      else (streamDecoded env bucket key p).1
    | none => (streamDecoded env bucket key p).1 := by
  unfold streamStored
  simp only [bind_apply, read_apply]
  cases firstStat bucket key p with
  | none => rfl
  | some m =>
    simp only
    split_ifs
    · rw [bind_apply]
      rcases getMultipart env bucket key m p with ⟨r, p'⟩
      cases r
      · rfl
      · rfl
    · rfl

/-! ## Reads on disks that answer alike -/

section Disks

variable (hd : ∀ d, SameContent bucket key (p.disks d) (p'.disks d))
  (hw : cachedWrite bucket key p' = cachedWrite bucket key p)
include hd hw

/-- **Reads from the disks** return the same, whatever the read caches hold. -/
theorem getStored_congr : (getStored env bucket key p').1 = (getStored env bucket key p).1 := by
  simp only [getStored_fst, getDecoded_fst, getMultipart_fst, firstStat_congr hd,
    objectEc_congr hd hw, readAndDecode_congr hd, readAndDecodeMultipart_congr hd]

theorem streamStored_congr :
    (streamStored env bucket key p').1 = (streamStored env bucket key p).1 := by
  simp only [streamStored_fst, streamDecoded_fst, streamMapped_fst, getMultipart_fst,
    firstStat_congr hd, objectEc_congr hd hw, readAndDecodeStream_congr hd,
    readAndDecodeMultipart_congr hd, fun d => (hd d).mmap]

end Disks

/-- What `get_object` returns: the write cache, the read cache, then the disks. -/
theorem getObject_fst (p : Pool V n) : (getObject env bucket key p).1 =
    (checkKey bucket key none p).bind fun _ =>
      match cachedWrite bucket key p with
      | some e => .ok (e.dataShards.flatten.take e.originalSize, e.info bucket key)
      | none =>
        match cachedRead bucket key p with
        | some e => .ok (e.data, e.info)
        | none => (getStored env bucket key p).1 := by
  cases hcheck : checkKey bucket key none p with
  | error e =>
    unfold getObject
    simp only [bind_apply, query_apply, hcheck]
    rfl
  | ok u =>
    cases hw : cachedWrite bucket key p with
    | some e => exact getObject_of_write env hcheck hw
    | none =>
      cases hr : cachedRead bucket key p with
      | some e => exact (getObject_of_read env hcheck hw hr).1
      | none =>
        rw [(getObject_of_disks env hcheck hw hr).1]
        exact getStored_congr (fun d => SameContent.refl bucket key (p.disks d)) rfl

/-- `get_object_stream` likewise, by the bytes it delivers. -/
theorem streamedObject_eq (p : Pool V n) : streamedObject env bucket key p =
    (checkKey bucket key none p).bind fun _ =>
      match cachedWrite bucket key p with
      | some e => .ok (e.info bucket key, streamBytes (e.dataShards.map .ok))
      | none =>
        match cachedRead bucket key p with
        | some e => .ok (e.info, .ok e.data)
        | none => (streamStored env bucket key p).1.map fun r => (r.1, streamBytes r.2) := by
  unfold streamedObject
  cases hcheck : checkKey bucket key none p with
  | error e =>
    unfold getObjectStream
    simp only [bind_apply, query_apply, hcheck]
    rfl
  | ok u =>
    cases hw : cachedWrite bucket key p with
    | some e =>
      unfold getObjectStream
      simp only [bind_apply, query_apply, hcheck, read_apply, hw]
      rfl
    | none =>
      cases hr : cachedRead bucket key p with
      | some e =>
        rw [(getObject_of_read env hcheck hw hr).2]
        simp [Except.map, Except.bind, streamBytes, bind, pure, Except.pure]
      | none =>
        rw [(getObject_of_disks env hcheck hw hr).2]
        exact congrArg _ (streamStored_congr (fun d => SameContent.refl bucket key (p.disks d)) rfl)

/-- A key is listed with its versions when the bucket is there, the first listing has the key and
some disk has versions of it. -/
theorem listsVersions_iff {keyPrefix : String} {versions : List ObjectMeta} :
    ListsVersions bucket keyPrefix key versions p ↔
      validateObjectPrefix keyPrefix = .ok () ∧ headBucket bucket p = .ok true ∧
        key ∈ firstKeys bucket keyPrefix p ∧ firstVersions bucket key p = some versions := by
  unfold ListsVersions listObjectVersions
  cases hname : validateBucketName bucket with
  | error e =>
    have hhead : headBucket bucket p = .error e := by
      unfold headBucket
      rw [hname]
      rfl
    simp [hhead, bind, Except.bind]
  | ok u =>
    cases hpre : validateObjectPrefix keyPrefix with
    | error e => simp [bind, Except.bind]
    | ok u =>
      rcases hhead : headBucket bucket p with e | (_ | _)
      · simp [bind, Except.bind]
      · simp [bind, Except.bind]
      · simp [bind, Except.bind]

section Disks

variable (hd : ∀ d, SameAnswers bucket key (p.disks d) (p'.disks d))
include hd

variable (hb : headBucket bucket p' = headBucket bucket p)
  (hr : cachedRead bucket key p' = cachedRead bucket key p ∨
    cachedRead bucket key p' = none ∧ Coherent env bucket key p)

include hb in
/-- A version is decoded alike. -/
theorem getObjectVersion_congr (hw : cachedWrite bucket key p' = cachedWrite bucket key p) (vid : String) :
    getObjectVersion env bucket key vid p' = getObjectVersion env bucket key vid p := by
  have hread : ∀ dataN parityN, readAndDecodeVersioned env p'.disks dataN parityN bucket key vid =
      readAndDecodeVersioned env p.disks dataN parityN bucket key vid := by
    intro dataN parityN
    unfold readAndDecodeVersioned
    simp only [fun d => (hd d).version]
  unfold getObjectVersion
  simp only [checkKey_congr hb, objectEc_congr (fun d => (hd d).content) hw, hread]

/-- The first listing has the key on both pools or on neither. -/
theorem firstKeys_congr {keyPrefix : String} (hpre : validateObjectPrefix keyPrefix = .ok ()) :
    key ∈ firstKeys bucket keyPrefix p' ↔ key ∈ firstKeys bucket keyPrefix p := by
  unfold firstKeys
  induction List.finRange n with
  | nil => exact Iff.rfl
  | cons d l ih =>
    have hok := (hd d).listOk keyPrefix hpre
    have hlisted := (hd d).listed keyPrefix
    rw [List.findSome?_cons, List.findSome?_cons]
    rcases h : Backend.listObjects bucket keyPrefix (p.disks d) with e | keys
    · rcases h' : Backend.listObjects bucket keyPrefix (p'.disks d) with e' | keys'
      · exact ih
      · rw [h, h'] at hok
        cases hok
    · rcases h' : Backend.listObjects bucket keyPrefix (p'.disks d) with e' | keys'
      · rw [h, h'] at hok
        cases hok
      · exact hlisted keys keys' h h'

theorem firstVersions_congr : firstVersions bucket key p' = firstVersions bucket key p := by
  unfold firstVersions
  simp only [fun d => (hd d).versions]

include hb in
theorem listsVersions_congr (keyPrefix : String) (versions : List ObjectMeta) :
    ListsVersions bucket keyPrefix key versions p' ↔
      ListsVersions bucket keyPrefix key versions p := by
  rw [listsVersions_iff, listsVersions_iff, hb, firstVersions_congr hd]
  constructor
  · rintro ⟨hpre, hhead, hkey, hversions⟩
    exact ⟨hpre, hhead, (firstKeys_congr hd hpre).mp hkey, hversions⟩
  · rintro ⟨hpre, hhead, hkey, hversions⟩
    exact ⟨hpre, hhead, (firstKeys_congr hd hpre).mpr hkey, hversions⟩

omit hd in
include hb hr in
/-- The reads of the current version look at the content only. The read cache may keep its entry or lose
one that says what the disks say. -/
theorem sameGets_of_cached (hc : ∀ d, SameContent bucket key (p.disks d) (p'.disks d))
    (hwrite : cachedWrite bucket key p' = cachedWrite bucket key p) :
    (getObject env bucket key p').1 = (getObject env bucket key p).1 ∧
      streamedObject env bucket key p' = streamedObject env bucket key p ∧
      headObject bucket key p' = headObject bucket key p := by
  have hhead : headObject bucket key p' = headObject bucket key p := by
    unfold headObject
    rw [checkKey_congr hb, hwrite, firstStat_congr hc]
  rw [getObject_fst, getObject_fst, streamedObject_eq, streamedObject_eq, checkKey_congr hb, hwrite,
    getStored_congr hc hwrite, streamStored_congr hc hwrite]
  rcases hr with hr | ⟨hr, hcoh⟩
  · rw [hr]
    exact ⟨rfl, rfl, hhead⟩
  · rw [hr]
    cases hcw : cachedWrite bucket key p with
    | some e => exact ⟨rfl, rfl, hhead⟩
    | none =>
      cases hcr : cachedRead bucket key p with
      | none => exact ⟨rfl, rfl, hhead⟩
      | some e =>
        rw [(hcoh hcw e hcr).1, (hcoh hcw e hcr).2]
        exact ⟨rfl, rfl, hhead⟩

include hb hr in
/-- **Disks that answer alike make pools that read alike.** The read cache may keep its entry or
lose one that says what the disks say. -/
theorem sameReads_of_cached (hwrite : cachedWrite bucket key p' = cachedWrite bucket key p) :
    SameReads env bucket key p p' := by
  obtain ⟨hget, hstream, hhead⟩ := sameGets_of_cached hb hr (fun d => (hd d).content) hwrite
  exact ⟨hget, hstream, hhead, getObjectVersion_congr hd hb hwrite, listsVersions_congr hd hb⟩

end Disks

/-! ## What a read leaves -/

/-- **A read changes only the read cache.** The key's entry stays, goes, or is one that the read
returned. -/
structure ReadLeaves (bucket key : String) (returned : Bytes × ObjectInfo → Prop)
    (p p' : Pool V n) : Prop where
  disks : p'.disks = p.disks
  writes : p'.writeCache = p.writeCache
  entry : cachedRead bucket key p' = cachedRead bucket key p ∨ cachedRead bucket key p' = none ∨
    ∃ r, returned r ∧ cachedRead bucket key p' = some ⟨r.1, r.2⟩

/-- Nothing is cached, or what the read returned. -/
def Fills (bucket key : String) (returned : Bytes × ObjectInfo → Prop) (p p' : Pool V n) : Prop :=
  p' = p ∨ ∃ r, returned r ∧ p' = onReadCache (fun c => c.put bucket key ⟨r.1, r.2⟩) p

variable {returned : Bytes × ObjectInfo → Prop}

theorem ReadLeaves.refl (p : Pool V n) : ReadLeaves bucket key returned p p :=
  ⟨rfl, rfl, Or.inl rfl⟩

/-- A lookup of the key does not change its entry. -/
theorem cachedRead_touched (bucket key : String) (p : Pool V n) :
    cachedRead bucket key (onReadCache (fun c => c.touch bucket key) p) = cachedRead bucket key p := by
  unfold cachedRead onReadCache
  cases p.readCache with
  | none => rfl
  | some c => exact ReadCache.lookup_touch

theorem ReadLeaves.touched (h : ReadLeaves bucket key returned
    (onReadCache (fun c => c.touch bucket key) p) p') : ReadLeaves bucket key returned p p' := by
  have hentry := h.entry
  rw [cachedRead_touched] at hentry
  exact ⟨h.disks, h.writes, hentry⟩

theorem Fills.leaves (h : Fills bucket key returned p p') : ReadLeaves bucket key returned p p' := by
  rcases h with rfl | ⟨r, hr, rfl⟩
  · exact ReadLeaves.refl _
  · refine ⟨rfl, rfl, ?_⟩
    unfold cachedRead onReadCache
    cases p.readCache with
    | none => exact Or.inl rfl
    | some c =>
      rcases @ReadCache.lookup_put bucket key c ⟨r.1, r.2⟩ with hput | hput | hput
      · exact Or.inr (Or.inr ⟨r, hr, hput⟩)
      · exact Or.inr (Or.inl hput)
      · left
        rw [Option.map_some, hput]

theorem populate_fills (data : Bytes) (m : ObjectMeta) (p : Pool V n) (h : returned (data, m.toInfo bucket key)) :
    Fills bucket key returned p (populate bucket key data m p).2 := by
  unfold populate
  rw [Act.modify_apply]
  split_ifs
  · exact Or.inr ⟨_, h, rfl⟩
  · exact Or.inl rfl

theorem getMultipart_snd (m : ObjectMeta) (p : Pool V n) : (getMultipart env bucket key m p).2 = p := by
  unfold getMultipart
  simp only [bind_apply, query_apply]
  cases readAndDecodeMultipart env p.disks bucket key m <;> rfl

theorem getStored_fills (p : Pool V n) : Fills bucket key
    (fun r => (getStored env bucket key p).1 = .ok r) p (getStored env bucket key p).2 := by
  have hdecoded : Fills bucket key (fun r => (getDecoded env bucket key p).1 = .ok r) p
      (getDecoded env bucket key p).2 := by
    unfold getDecoded
    simp only [bind_apply, read_apply, query_apply]
    cases readAndDecode env p.disks (objectEc bucket key p).1 (objectEc bucket key p).2 bucket key with
    | error e => exact Or.inl rfl
    | ok r => exact populate_fills r.1 r.2 p rfl
  unfold getStored
  simp only [bind_apply, read_apply]
  cases firstStat bucket key p with
  | none => exact hdecoded
  | some m =>
    dsimp only
    split_ifs
    · exact Or.inl (getMultipart_snd m p)
    · exact hdecoded

theorem streamBytes_ok (pieces : List Bytes) : streamBytes (pieces.map .ok) = .ok pieces.flatten := by
  unfold streamBytes
  obtain ⟨as, has⟩ := Act.mapM_id_of_ok (l := pieces.map Except.ok) fun r hr => by
    obtain ⟨a, -, rfl⟩ := List.mem_map.mp hr
    exact ⟨a, rfl⟩
  have heq := Act.mapM_id_eq_ok has
  rw [has, map_ok_inj heq]
  rfl

theorem streamStored_fills (p : Pool V n) : Fills bucket key
    (fun r => (streamStored env bucket key p).1.map (fun r => (r.1, streamBytes r.2)) =
      .ok (r.2, .ok r.1)) p (streamStored env bucket key p).2 := by
  have hdecoded : Fills bucket key
      (fun r => (streamDecoded env bucket key p).1.map (fun r => (r.1, streamBytes r.2)) =
        .ok (r.2, .ok r.1)) p (streamDecoded env bucket key p).2 := by
    unfold streamDecoded
    simp only [bind_apply, read_apply]
    split_ifs
    · unfold streamMapped
      simp only [bind_apply, read_apply]
      cases (List.finRange n).findSome? fun d =>
          (mmapShard bucket key (p.disks d)).toOption with
      | none => exact Or.inl rfl
      | some r =>
        refine populate_fills r.1 r.2 p ?_
        have hflat : (Lib.blocks mmapChunkSize r.1).flatten = r.1 := Lib.blocks_flatten (by decide) r.1
        simp only [populate, bind_apply, Act.modify_apply, Act.pure_apply, Except.map, streamBytes_ok, hflat]
    · simp only [bind_apply, query_apply]
      cases readAndDecodeStream env p.disks (objectEc bucket key p).1 (objectEc bucket key p).2 bucket
        key
      · exact Or.inl rfl
      · exact Or.inl rfl
  unfold streamStored
  simp only [bind_apply, read_apply]
  cases firstStat bucket key p with
  | none => exact hdecoded
  | some m =>
    dsimp only
    split_ifs
    · unfold getMultipart
      simp only [bind_apply, query_apply]
      cases readAndDecodeMultipart env p.disks bucket key m <;> exact Or.inl rfl
    · exact hdecoded

theorem gets_leave (p : Pool V n) :
    ReadLeaves bucket key (fun r => (getObject env bucket key p).1 = .ok r) p
        (getObject env bucket key p).2 ∧
      ReadLeaves bucket key (fun r => streamedObject env bucket key p = .ok (r.2, .ok r.1)) p
        (getObjectStream env bucket key p).2 := by
  unfold streamedObject
  cases hcheck : checkKey bucket key none p with
  | error e =>
    unfold getObject getObjectStream
    simp only [bind_apply, query_apply, hcheck]
    exact ⟨ReadLeaves.refl p, ReadLeaves.refl p⟩
  | ok u =>
    cases hw : cachedWrite bucket key p with
    | some e =>
      unfold getObject getObjectStream
      simp only [bind_apply, query_apply, hcheck, read_apply, hw]
      exact ⟨ReadLeaves.refl p, ReadLeaves.refl p⟩
    | none =>
      cases hr : cachedRead bucket key p with
      | some e =>
        unfold getObject getObjectStream
        simp only [bind_apply, query_apply, hcheck, read_apply, hw, getCachedRead, hr]
        exact ⟨(ReadLeaves.refl _).touched, (ReadLeaves.refl _).touched⟩
      | none =>
        rw [(getObject_of_disks env hcheck hw hr).1, (getObject_of_disks env hcheck hw hr).2]
        exact ⟨(getStored_fills _).leaves.touched, (streamStored_fills _).leaves.touched⟩

/-- **What `get_object` leaves.** -/
theorem getObject_leaves (p : Pool V n) : ReadLeaves bucket key
    (fun r => (getObject env bucket key p).1 = .ok r) p (getObject env bucket key p).2 :=
  (gets_leave p).1

/-- **What `get_object_stream` leaves.** -/
theorem getObjectStream_leaves (p : Pool V n) : ReadLeaves bucket key
    (fun r => streamedObject env bucket key p = .ok (r.2, .ok r.1)) p
      (getObjectStream env bucket key p).2 := (gets_leave p).2

/-! ## Objects that are not there -/

/-- A disk without the object. -/
structure Absent (bucket key : String) (v : V) : Prop where
  stat : statObject bucket key v = .error .objectNotFound
  read : readShard bucket key v = .error .objectNotFound
  mmap : mmapShard bucket key v = .error .objectNotFound

theorem gatherShards_absent (dataN parityN : Nat) {reads : Fin n → ShardRead}
    (h : ∀ d, reads d = .error .objectNotFound) :
    gatherShards env dataN parityN ((List.finRange n).map reads) = .error .objectNotFound := by
  have hnone : ((List.finRange n).map reads).any Except.isOk = false := by
    rw [List.any_map, List.any_eq_false]
    intro d _
    rw [Function.comp_apply, h d]
    exact Bool.false_ne_true
  unfold gatherShards
  rw [hnone]
  rfl

section

variable (h : ∀ d, Absent bucket key (p.disks d))
include h

theorem firstStat_absent : firstStat bucket key p = none := by
  unfold firstStat
  rw [List.findSome?_eq_none_iff]
  intro d _
  rw [(h d).stat]
  rfl

theorem getStored_absent : (getStored env bucket key p).1 = .error .objectNotFound := by
  have hdecode : ∀ dataN parityN, readAndDecode env p.disks dataN parityN bucket key =
      .error .objectNotFound := by
    intro dataN parityN
    unfold readAndDecode decodeReads
    rw [gatherShards_absent dataN parityN fun d => (h d).read]
    rfl
  unfold getStored getDecoded
  simp only [bind_apply, read_apply, firstStat_absent h, query_apply, hdecode]

theorem streamStored_absent : (streamStored env bucket key p).1 = .error .objectNotFound := by
  have hmapped : ((List.finRange n).findSome? fun d =>
      (mmapShard bucket key (p.disks d)).toOption) = none := by
    rw [List.findSome?_eq_none_iff]
    intro d _
    rw [(h d).mmap]
    rfl
  have hdecode : ∀ dataN parityN, readAndDecodeStream env p.disks dataN parityN bucket key =
      .error .objectNotFound := by
    intro dataN parityN
    unfold readAndDecodeStream streamReads
    rw [gatherShards_absent dataN parityN fun d => (h d).mmap]
    rfl
  unfold streamStored streamDecoded
  simp only [bind_apply, read_apply, firstStat_absent h]
  split
  · unfold streamMapped
    simp only [bind_apply, read_apply, hmapped]
    rfl
  · simp only [bind_apply, query_apply, hdecode]

end

/-- **An object that no disk and no cache has is not found.** -/
theorem reads_absent (hcheck : checkKey bucket key none p = .ok ())
    (hw : cachedWrite bucket key p = none) (hr : cachedRead bucket key p = none)
    (h : ∀ d, Absent bucket key (p.disks d)) :
    (getObject env bucket key p).1 = .error .objectNotFound ∧
      (getObjectStream env bucket key p).1 = .error .objectNotFound ∧
      headObject bucket key p = .error .objectNotFound := by
  obtain ⟨hget, hstream⟩ := getObject_of_disks env hcheck hw hr
  refine ⟨?_, ?_, ?_⟩
  · rw [hget]
    exact getStored_absent h
  · rw [hstream]
    exact streamStored_absent h
  · unfold headObject
    rw [hcheck, hw, firstStat_absent h]
    rfl

end Reads

end Abixio
