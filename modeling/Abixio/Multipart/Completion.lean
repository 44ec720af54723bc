import Abixio.Multipart.PartDecode

/-!
# Completing an upload on disks that work

What `complete_upload` (`src/multipart/mod.rs:208-366`) leaves when every disk is `Workable`: each listed
part is in the object's directory on every disk that had it staged, and `meta.json` lists the parts as
the first disk with their metadata describes them (`completeUpload_workable`).

Then the round trip of an upload. Every disk gets a shard of every part, on a permutation of the disks
that depends on the part, and finds it again through the index in its own `part.N.meta`. Parts can be
uploaded again, with another layout, and in any order. `UploadRun.round_trip`: the decoder returns the last
contents of the listed parts, also when for each part as many disks as it has parity shards lose it.
-/

namespace Abixio

open Lib List LocalVolume

variable {n : Nat} {u : PartUpload} {upload : UploadMeta}

/-! ## The metadata a completion finds -/

variable {requested : List (Int × String)} {number : Int} {pm : PartFileMeta}
  {metas : Int → PartFileMeta} {available : List PartMeta} {bucket key uploadId : String} {dir obj : Path}
  (hdir : multipartUploadDir bucket key uploadId = .ok dir) (hobj : objectDir bucket key = .ok obj)

section Found

variable {staging : Path} {s : Disks LocalVolume n}

/-- The metadata of a staged part: that of the first disk that has some. -/
def stagedMeta (staging : Path) (number : Int) (disks : Disks LocalVolume n) : Option PartFileMeta :=
  (finRange n).findSome? fun d =>
    match (disks d).fs.read (staging ++ [LocalVolume.partMetaFile number]) with
    | some (.partJson pm) => some pm
    | _ => none

/-- The entry of a part in the object's metadata. -/
def partEntry (number : Int) (pm : PartFileMeta) : PartEntry :=
  ⟨number, pm.size, pm.etag, pm.erasure, pm.checksum⟩

theorem stagedMeta_congr {s t : Disks LocalVolume n}
    (h : ∀ d, (t d).fs.read (staging ++ [partMetaFile number]) =
      (s d).fs.read (staging ++ [partMetaFile number])) :
    stagedMeta staging number t = stagedMeta staging number s := by
  unfold stagedMeta
  simp only [h]

theorem stagedMeta_some (h : stagedMeta staging number s = some pm) :
    ∃ d, (s d).fs.read (staging ++ [partMetaFile number]) = some (.partJson pm) := by
  obtain ⟨d, -, hd⟩ := exists_of_findSome?_eq_some h
  refine ⟨d, ?_⟩
  split at hd
  · rename_i pm' hread
    rw [hread, Option.some.inj hd]
  · cases hd

theorem stagedMeta_isSome {d : Fin n}
    (h : (s d).fs.read (staging ++ [partMetaFile number]) = some (.partJson pm)) :
    ∃ pm', stagedMeta staging number s = some pm' := by
  rw [← Option.isSome_iff_exists, stagedMeta, findSome?_isSome_iff]
  refine ⟨d, mem_finRange d, ?_⟩
  rw [h]
  rfl

theorem completePart_eq (number : Int) (s : Disks LocalVolume n) :
    completePart staging obj number s =
      match stagedMeta staging number s with
      | none => (.error .objectNotFound, s)
      | some pm => ((Act.each (fun d => Act.at d (movePart staging obj number)) (finRange n)) >>=
          fun _ => pure (partEntry number pm)) s := by
  change (match stagedMeta staging number s with
    | none => Act.fail .objectNotFound
    | some pm => Act.each _ _ >>= fun _ => pure (partEntry number pm) : PoolAct _ n _) s = _
  cases stagedMeta staging number s <;> rfl

/-! ## Moving the parts -/

/-- **What moving several parts leaves on a disk.** -/
structure PartsMoved (staging obj : Path) (numbers : List Int) (v v' : LocalVolume) : Prop where
  worked : Worked staging obj v v'
  file : ∀ number ∈ numbers, ∀ name, PartName number name →
    v'.fs.read (obj ++ [name]) = (v.fs.read (staging ++ [name])).or (v.fs.read (obj ++ [name]))
  gone : ∀ number ∈ numbers, v'.fs.read (staging ++ [LocalVolume.partMetaFile number]) = none
  other : ∀ q, (∀ number ∈ numbers, ∀ name, PartName number name →
    q ≠ staging ++ [name] ∧ q ≠ obj ++ [name]) → v'.fs.read q = v.fs.read q

section

variable (ha : ApartDirs staging obj)
include ha

/-- The files of another part. -/
theorem other_part {number number' : Int} (h : number' ≠ number) {name name' : String}
    (hname : PartName number name) (hname' : PartName number' name') :
    (staging ++ [name'] ≠ staging ++ [name] ∧ staging ++ [name'] ≠ obj ++ [name]) ∧
      obj ++ [name'] ≠ staging ++ [name] ∧ obj ++ [name'] ≠ obj ++ [name] := by
  have hne : name' ≠ name := by
    rcases hname with rfl | rfl <;> rcases hname' with rfl | rfl
    · exact fun e => h (partFile_injective e)
    · exact (partFile_ne_partMetaFile number number').symm
    · exact partFile_ne_partMetaFile number' number
    · exact fun e => h (partMetaFile_injective e)
  exact ⟨⟨concat_ne staging hne, ha.concat_ne _ _⟩, (ha.concat_ne _ _).symm, concat_ne obj hne⟩

/-- A part is not touched by another one. -/
theorem PartIn.other {shard : Bytes} {v v' : LocalVolume} (hne : pm.partNumber ≠ number)
    (hother : ∀ q, q ≠ staging ++ [partFile number] → q ≠ staging ++ [partMetaFile number] →
      v'.fs.read q = v.fs.read q)
    (h : PartIn staging pm shard v) : PartIn staging pm shard v' := by
  refine ⟨(hother _ ?_ ?_).trans h.described, (hother _ ?_ ?_).trans h.data⟩
  · exact (other_part ha hne (Or.inl rfl) (Or.inr rfl)).1.1
  · exact (other_part ha hne (Or.inr rfl) (Or.inr rfl)).1.1
  · exact (other_part ha hne (Or.inl rfl) (Or.inl rfl)).1.1
  · exact (other_part ha hne (Or.inr rfl) (Or.inl rfl)).1.1

theorem PartMoved.cons {v v' v'' : LocalVolume} {numbers : List Int}
    (hnew : number ∉ numbers) (h : PartMoved staging obj number v v')
    (h' : PartsMoved staging obj numbers v' v'') : PartsMoved staging obj (number :: numbers) v v'' := by
  have hlater : ∀ number' ∈ numbers, number' ≠ number := by
    rintro number' hmem rfl
    exact hnew hmem
  -- the first part is not touched again, and the others are as before it
  have hkeep : ∀ name, PartName number name → v''.fs.read (staging ++ [name]) = v'.fs.read (staging ++ [name]) ∧
      v''.fs.read (obj ++ [name]) = v'.fs.read (obj ++ [name]) := by
    intro name hname
    refine ⟨h'.other _ fun number' hmem name' hname' => ?_, h'.other _ fun number' hmem name' hname' => ?_⟩
    · exact (other_part ha (hlater number' hmem).symm hname' hname).1
    · exact (other_part ha (hlater number' hmem).symm hname' hname).2
  have hback : ∀ number' ∈ numbers, ∀ name', PartName number' name' →
      v'.fs.read (staging ++ [name']) = v.fs.read (staging ++ [name']) ∧
        v'.fs.read (obj ++ [name']) = v.fs.read (obj ++ [name']) := by
    intro number' hmem name' hname'
    exact ⟨h.other _ fun name hname => (other_part ha (hlater number' hmem) hname hname').1,
      h.other _ fun name hname => (other_part ha (hlater number' hmem) hname hname').2⟩
  refine ⟨h.worked.trans h'.worked, fun number' hmem name hname => ?_, fun number' hmem => ?_, fun q hq => ?_⟩
  · rcases mem_cons.mp hmem with rfl | hmem
    · rw [(hkeep _ hname).2]
      exact h.file name hname
    · obtain ⟨hs, ho⟩ := hback number' hmem _ hname
      rw [h'.file number' hmem name hname, hs, ho]
  · rcases mem_cons.mp hmem with rfl | hmem
    · rw [(hkeep _ (Or.inr rfl)).1]
      exact h.gone
    · exact h'.gone number' hmem
  · rw [h'.other q fun number' hmem => hq number' (.tail _ hmem), h.other q (hq number mem_cons_self)]

theorem completePart_workable
    (hs : ∀ d, Workable staging obj (s d)) (hpm : stagedMeta staging number s = some pm) :
    ∃ t, completePart staging obj number s = (.ok (partEntry number pm), t) ∧
      ∀ d, PartMoved staging obj number (s d) (t d) := by
  obtain ⟨as, t, hrun, heach⟩ := Act.each_all (f := fun _ => movePart staging obj number) (s := s)
    fun d => by
      obtain ⟨v', hmove, -⟩ := movePart_workable ha (hs d) number
      exact ⟨(), v', hmove⟩
  refine ⟨t, ?_, fun d => ?_⟩
  · rw [completePart_eq, hpm]
    exact Act.bind_ok hrun
  · obtain ⟨v', hmove, hmoved⟩ := movePart_workable ha (hs d) number
    obtain ⟨a, hd⟩ := heach d
    rw [hmove, Prod.mk.injEq] at hd
    rw [← hd.2]
    exact hmoved

/-- **The parts of a list with distinct numbers are moved one after another.** -/
theorem completeParts_workable
    (hs : ∀ d, Workable staging obj (s d)) (hnodup : (requested.map Prod.fst).Nodup)
    (hmetas : ∀ r ∈ requested, stagedMeta staging r.1 s = some (metas r.1)) :
    ∃ t, Act.each (fun r : Int × String => completePart staging obj r.1) requested s =
        (.ok (requested.map fun r => partEntry r.1 (metas r.1)), t) ∧
      ∀ d, PartsMoved staging obj (requested.map Prod.fst) (s d) (t d) := by
  induction requested generalizing s with
  | nil =>
    refine ⟨s, rfl, fun d => ⟨⟨(hs d).calm, fun _ _ => rfl, fun _ _ _ => rfl, fun _ h => h⟩, ?_, ?_,
      fun _ _ => rfl⟩⟩
    all_goals exact fun _ h => absurd h not_mem_nil
  | cons r requested ih =>
    rw [map_cons, nodup_cons] at hnodup
    obtain ⟨t₁, hrun₁, hmoved₁⟩ := completePart_workable ha hs (hmetas r mem_cons_self)
    obtain ⟨t, hrun, hmoved⟩ := ih (s := t₁) (fun d => (hs d).of_worked ha (hmoved₁ d).worked) hnodup.2
      fun r' hr' => by
        refine (stagedMeta_congr fun d => ?_).trans (hmetas r' (.tail _ hr'))
        have hne : r'.1 ≠ r.1 := by
          intro e
          exact hnodup.1 (e ▸ mem_map_of_mem hr')
        exact (hmoved₁ d).other _ fun name hname => (other_part ha hne hname (Or.inr rfl)).1
    refine ⟨t, ?_, fun d => (hmoved₁ d).cons ha hnodup.1 (hmoved d)⟩
    rw [Act.each_cons, Act.bind_ok hrun₁, Act.bind_ok hrun]
    rfl

/-! ## The whole completion -/

end

include hdir hobj in
/-- Uploads are staged apart from objects. -/
theorem apart_of_staged {base : Path} (hbase : dir <+: base) : ApartDirs base obj := by
  obtain ⟨hb, rfl⟩ := objectDir_eq_ok hobj
  have hne := bucket_ne_system hb
  obtain ⟨rest, rfl⟩ : ∃ rest, base = ".abixio.sys" :: rest := by
    obtain ⟨tail, htail⟩ := (multipartUploadDir_staged hdir).trans hbase
    exact ⟨"multipart" :: tail, htail.symm⟩
  refine ⟨fun q hq => ?_, fun q hq hback => ?_⟩
  · obtain ⟨tail, rfl⟩ := hq
    refine ⟨fun h => hne ?_, fun h => hne ?_⟩
    · exact (cons_prefix_cons.mp h).1.symm
    · exact (cons_prefix_cons.mp h).1
  · obtain ⟨tail, rfl⟩ := hq
    exact hne (cons_prefix_cons.mp hback).1

/-- **A disk after the completion.** -/
structure CompletedDisk (staging obj : Path) (bucket key : String) (m : ObjectMeta) (index : Nat)
    (numbers : List Int) (v v' : LocalVolume) : Prop where
  isDir : v'.fs.isDir obj = true
  stored : v'.fs.read (obj ++ ["meta.json"]) =
    some (.metaJson ⟨bucket, key, [{ m with erasure := { m.erasure with index := index } }]⟩)
  file : ∀ number ∈ numbers, ∀ name, PartName number name →
    v'.fs.read (obj ++ [name]) = (v.fs.read (staging ++ [name])).or (v.fs.read (obj ++ [name]))

/-- The clean-up leaves the object's files. -/
theorem cleanup_keeps (hapart : ApartDirs dir obj) (v : LocalVolume) {q : Path} (hq : obj <+: q) :
    ((fsCall fun fs => fs.removeDirAll dir) v).2.fs.read q = v.fs.read q ∧
      ((fsCall fun fs => fs.removeDirAll dir) v).2.fs.isDir q = v.fs.isDir q := by
  have hnot : ¬ dir <+: q := fun h => (hapart.of_staging q h).2 hq
  cases hrun : fsCall (fun fs => fs.removeDirAll dir) v with
  | mk r v' =>
    cases r with
    | error e => rw [fsCall_error hrun]; exact ⟨rfl, rfl⟩
    | ok u => exact FileTree.removeDirAll_of_not_prefix (fsCall_ok hrun) hnot

end Found

variable {s : Disks LocalVolume (n + 1)} (hs : ∀ d, Workable (dir ++ [upload.dataDir]) obj (s d))
  (hlist : listParts bucket key uploadId s = .ok (upload, available))
  (havailable : ∀ r ∈ requested, ∃ p ∈ available, p.partNumber = r.1)
  (hnodup : (requested.map Prod.fst).Nodup)

include hs hlist havailable hnodup hdir hobj in
/-- **A completion of staged parts with distinct numbers**, on workable disks. -/
theorem completeUpload_workable (env : Env) (now : Nat)
    (hmetas : ∀ r ∈ requested, stagedMeta (dir ++ [upload.dataDir]) r.1 s = some (metas r.1)) :
    let m := multipartMeta env upload requested (requested.map fun r => partEntry r.1 (metas r.1)) now
    ∃ t, completeUpload bucket key uploadId env requested now s = (.ok (m.toInfo bucket key), t) ∧
      ∀ d : Fin (n + 1), CompletedDisk (dir ++ [upload.dataDir]) obj bucket key m d (requested.map Prod.fst) (s d)
        (t d) := by
  intro m
  obtain ⟨hb, hk, hu, -⟩ := accepted_of_uploadDir hdir
  have hapart := apart_of_staged hdir hobj (prefix_append dir [upload.dataDir])
  have hall : (requested.all fun r => available.any fun p => p.partNumber = r.1) = true := by
    rw [all_eq_true]
    intro r hr
    obtain ⟨p, hp, hnumber⟩ := havailable r hr
    exact any_eq_true.mpr ⟨p, hp, decide_eq_true hnumber⟩
  obtain ⟨t₁, hparts, hmoved⟩ := completeParts_workable hapart hs hnodup hmetas
  have hwork : ∀ d, Workable (dir ++ [upload.dataDir]) obj (t₁ d) := fun d =>
    (hs d).of_worked hapart (hmoved d).worked
  -- every disk takes the metadata
  have hwrites := Act.each_attempt (fun d : Fin (n + 1) => writeCompleted bucket key obj m d) t₁
  set t₂ : Disks LocalVolume (n + 1) := fun d => (writeCompleted bucket key obj m d (t₁ d)).2 with ht₂
  have hall_ok : (((finRange (n + 1)).map fun d => (writeCompleted bucket key obj m d (t₁ d)).1).filter
      Except.isOk).length ≠ 0 := by
    obtain ⟨v', hrun, -⟩ := writeCompleted_workable hapart (hwork 0) bucket key m (0 : Fin (n + 1))
    refine length_pos_iff_exists_mem.mpr ⟨.ok (), mem_filter.mpr ⟨?_, rfl⟩⟩ |>.ne'
    exact mem_map.mpr ⟨0, mem_finRange 0, by rw [hrun]⟩
  have hclean := Act.each_attempt
    (fun _ : Fin (n + 1) => fsCall fun fs => fs.removeDirAll dir) t₂
  refine ⟨fun d => ((fsCall fun fs => fs.removeDirAll dir) (t₂ d)).2, ?_, fun d => ?_⟩
  · unfold completeUpload
    rw [hb, hk, hu]
    simp only [Act.bind_apply, Act.ofExcept_apply, Act.query_apply, hlist, hall, if_true, hdir,
      hobj, hparts]
    rw [show multipartMeta env upload requested (requested.map fun r => partEntry r.1 (metas r.1)) now = m
      from rfl, hwrites]
    simp only [hall_ok, if_false, Act.bind_apply, hclean]
    rfl
  · obtain ⟨v', hrun, -, hisDir, hstored, hother⟩ :=
      writeCompleted_workable hapart (hwork d) bucket key m d
    have ht : t₂ d = v' := by
      exact congrArg Prod.snd hrun
    have hkeeps : ∀ {q : Path}, obj <+: q → _ := fun {q} hq =>
      cleanup_keeps (apart_of_staged hdir hobj (prefix_refl dir)) v' hq
    have hmeta : ∀ name, name ≠ "meta.json" → v'.fs.read (obj ++ [name]) = (t₁ d).fs.read (obj ++ [name]) :=
      fun name hname => hother _ (concat_ne obj hname)
    dsimp only
    rw [ht]
    refine ⟨(hkeeps (prefix_refl _)).2.trans hisDir, (hkeeps (prefix_append _ _)).1.trans hstored,
      fun number hmem name hname => ?_⟩
    have hother : name ≠ "meta.json" := by
      rcases hname with rfl | rfl
      · exact (part_ne_meta number).1
      · exact (part_ne_meta number).2
    rw [(hkeeps (prefix_append _ _)).1, hmeta _ hother]
    exact (hmoved d).file number hmem name hname

/-! ## Uploading parts -/

section Upload

variable {env : Env} {s : Disks LocalVolume n}

/-- The writes of a part, when it has a shard for every disk. -/
theorem partTargets_eq {order : List Nat} (h : order.Perm (range n)) {shards : List Bytes}
    (hlen : shards.length = n) : partTargets n order shards =
      (range n).filterMap fun i => (partDisks n order)[i]?.map fun d => (d, i, shards.getD i []) := by
  unfold partTargets
  rw [hlen]
  refine filterMap_congr fun i _ => ?_
  rw [← partDisks_getElem? h]
  cases (partDisks n order)[i]? with
  | none => rfl
  | some d =>
    rw [Option.map_some, Option.map_some, Option.bind_some, dif_pos d.isLt]

theorem partTargets_getElem? {order : List Nat} (h : order.Perm (range n)) {shards : List Bytes}
    (hlen : shards.length = n) (i : Nat) :
    (partTargets n order shards)[i]? = (partDisks n order)[i]?.map fun d => (d, i, shards.getD i []) := by
  obtain ⟨-, hdisks, -⟩ := partDisks_perm h
  have hmap : partTargets n order shards =
      (finRange n).map fun i => ((partDisks n order).get (i.cast hdisks.symm), i.val,
        shards.getD i.val []) := by
    rw [partTargets_eq h hlen, ← map_coe_finRange_eq_range, filterMap_map, ← filterMap_eq_map]
    refine filterMap_congr fun i _ => ?_
    have hi : i.val < (partDisks n order).length := hdisks.symm ▸ i.isLt
    change (partDisks n order)[i.val]?.map _ = _
    rw [getElem?_eq_getElem hi]
    rfl
  rw [hmap, getElem?_map]
  by_cases hi : i < n
  · rw [getElem?_eq_getElem (by simpa using hi), getElem?_eq_getElem (hdisks.symm ▸ hi),
      getElem_finRange]
    rfl
  · rw [getElem?_eq_none (by simpa using hi), getElem?_eq_none (by rw [hdisks]; omega)]
    rfl

/-- **What a stored part is on a disk.** -/
structure PartStored (staging obj : Path) (env : Env) (u : PartUpload) (distribution : List (Fin n))
    (s t : Disks LocalVolume n) : Prop where
  worked : ∀ d, Worked staging obj (s d) (t d)
  isDir : ∀ d, (t d).fs.isDir staging = true
  part : ∀ (i : Nat) d, distribution[i]? = some d →
    PartIn staging (partFileMeta env u i ((u.rows env).getD i [])) ((u.rows env).getD i []) (t d)
  other : ∀ d q, q ≠ staging ++ [LocalVolume.partFile u.number] →
    q ≠ staging ++ [LocalVolume.partMetaFile u.number] → (t d).fs.read q = (s d).fs.read q

include hdir in
/-- **A call of `put_part` on any disks**: every disk is asked to store its shard, and what it answers is
counted. -/
theorem putPart_eq (env : Env) (hupload : readUpload bucket key uploadId s = .ok upload) (hfits : u.Fits n) :
    ∃ (stored : List Bool) (t : Disks LocalVolume n), stored.length = n ∧
      (∀ (i : Nat) d, (partDisks n (partOrder bucket key env u))[i]? = some d → ∃ b, stored[i]? = some b ∧
        writePart (dir ++ [upload.dataDir]) (partFileMeta env u i ((u.rows env).getD i []))
          ((u.rows env).getD i []) (s d) = (.ok b, t d)) ∧ putPart bucket key uploadId env u s =
        if (stored.filter id).length < (if u.parityN = 0 then u.dataN else u.dataN + 1) then
          (.error .writeQuorum, t)
        else (.ok ⟨u.number, u.data.length, env.md5Hex u.data⟩, t) := by
  obtain ⟨hb, hk, hu, -⟩ := accepted_of_uploadDir hdir
  have hperm := partOrder_perm bucket key env hfits
  have hrows : (u.rows env).length = n := (PartUpload.rows_length env u).trans hfits.2.1
  obtain ⟨hnd, hlen, -⟩ := partDisks_perm hperm
  set order := partOrder bucket key env u with horder
  set targets := partTargets n order (u.rows env) with htargets
  have htarget := partTargets_getElem? hperm hrows
  have hfst : targets.map Prod.fst = partDisks n order := by
    refine ext_getElem? fun i => ?_
    rw [getElem?_map, htarget i, Option.map_map]
    exact Option.map_id'
  have hnodup : (targets.map Prod.fst).Nodup := hfst ▸ hnd
  let write := fun t : Fin n × (Nat × Bytes) =>
    writePart (dir ++ [upload.dataDir]) (partFileMeta env u t.2.1 t.2.2) t.2.2
  obtain ⟨stored, t, hrun⟩ : ∃ stored t, Act.each (fun x => Act.at (Prod.fst x) (write x)) targets s =
      (.ok stored, t) :=
    Act.each_at_total hnodup fun x _ => writePart_total _ _ _ _
  obtain ⟨hall, -⟩ := Act.each_at_ok hnodup hrun
  have hcount : stored.length = n := by
    have hmap := congrArg length hfst
    rw [length_map, hlen] at hmap
    exact hall.length_eq.symm.trans hmap
  refine ⟨stored, t, hcount, fun i d hi => ?_, ?_⟩
  · have hx : targets[i]? = some (d, i, (u.rows env).getD i []) := by rw [htarget i, hi]; rfl
    have hlt : i < stored.length := by
      rw [← hall.length_eq]
      exact (List.getElem?_eq_some_iff.mp hx).1
    exact ⟨stored[i], getElem?_eq_getElem hlt,
      Act.forall₂_getElem? hall hx (getElem?_eq_getElem hlt)⟩
  · unfold putPart
    rw [hb, hk, hu]
    simp only [Act.bind_apply, Act.ofExcept_apply, Act.query_apply, hupload, partShards_ok hfits,
      hdir]
    rw [show Act.each (fun t : Fin n × (Nat × Bytes) => Act.at t.1 (writePart (dir ++ [upload.dataDir])
      (partFileMeta env u t.2.1 t.2.2) t.2.2)) (partTargets n (partOrder bucket key env u) (u.rows env)) s =
        (.ok stored, t) from hrun]
    dsimp only
    split_ifs <;> rfl

include hdir hobj in
/-- **A part is stored on workable disks.** -/
theorem putPart_workable (env : Env) (hs : ∀ d, Workable (dir ++ [upload.dataDir]) obj (s d))
    (hupload : readUpload bucket key uploadId s = .ok upload) (hfits : u.Fits n) :
    ∃ t, putPart bucket key uploadId env u s =
        (.ok ⟨u.number, u.data.length, env.md5Hex u.data⟩, t) ∧
      PartStored (dir ++ [upload.dataDir]) obj env u (partDisks n (partOrder bucket key env u)) s t := by
  have hapart := apart_of_staged hdir hobj (prefix_append dir [upload.dataDir])
  obtain ⟨-, hlen, -⟩ := partDisks_perm (partOrder_perm bucket key env hfits)
  obtain ⟨stored, t, hcount, hwrites, hput⟩ := putPart_eq hdir env hupload hfits
  -- every write goes through
  have hdisk : ∀ (i : Nat) d, (partDisks n (partOrder bucket key env u))[i]? = some d →
      stored[i]? = some true ∧ Worked (dir ++ [upload.dataDir]) obj (s d) (t d) ∧
      PartIn (dir ++ [upload.dataDir]) (partFileMeta env u i ((u.rows env).getD i []))
        ((u.rows env).getD i []) (t d) ∧ (t d).fs.isDir (dir ++ [upload.dataDir]) = true ∧
      ∀ q, q ≠ dir ++ [upload.dataDir] ++ [partFile u.number] →
        q ≠ dir ++ [upload.dataDir] ++ [partMetaFile u.number] →
          (t d).fs.read q = (s d).fs.read q := by
    intro i d hi
    obtain ⟨b, hb, hcall⟩ := hwrites i d hi
    obtain ⟨v', hwrite, hworked, hpart, hisDir, hother⟩ := writePart_workable hapart (hs d)
      (partFileMeta env u i ((u.rows env).getD i [])) ((u.rows env).getD i [])
    have hboth := hwrite.symm.trans hcall
    obtain ⟨rfl, rfl⟩ := hboth
    exact ⟨hb, hworked, hpart, hisDir, hother⟩
  have hquorum : ¬ (stored.filter id).length < (if u.parityN = 0 then u.dataN else u.dataN + 1) := by
    have htrue : ∀ x ∈ stored, id x = true := by
      intro x hx
      obtain ⟨i, hi⟩ := mem_iff_getElem?.mp hx
      have hlt : i < (partDisks n (partOrder bucket key env u)).length := by
        rw [hlen, ← hcount]
        exact (List.getElem?_eq_some_iff.mp hi).1
      have hstored := (hdisk i _ (getElem?_eq_getElem hlt)).1
      rw [hi] at hstored
      exact Option.some.inj hstored
    rw [filter_eq_self.mpr htrue, hcount]
    have := hfits.2.1
    split_ifs <;> omega
  refine ⟨t, hput.trans (if_neg hquorum), fun d => ?_, fun d => ?_, fun i d hi => (hdisk i d hi).2.2.1,
    fun d => ?_⟩
  · obtain ⟨i, hi⟩ := hfits.exists_row bucket key env d
    exact (hdisk i d hi).2.1
  · obtain ⟨i, hi⟩ := hfits.exists_row bucket key env d
    exact (hdisk i d hi).2.2.2.1
  · obtain ⟨i, hi⟩ := hfits.exists_row bucket key env d
    exact (hdisk i d hi).2.2.2.2

/-- A part that the code rejects changes nothing. -/
theorem putPart_rejected (env : Env) (bucket key uploadId : String) (s : Disks LocalVolume (n + 1))
    (hn : u.dataN + u.parityN = n + 1) (hnot : ¬ u.Fits (n + 1)) :
    ∃ e, putPart bucket key uploadId env u s = (.error e, s) := by
  have hshards : ∃ e, partShards env u.dataN u.parityN u.data = .error e := by
    cases hrun : partShards env u.dataN u.parityN u.data with
    | error e => exact ⟨e, rfl⟩
    | ok rows =>
      exfalso
      by_cases hd : 0 < u.dataN
      · exact hnot (fits_of_partShards hn hd hrun)
      · obtain hd : u.dataN = 0 := by omega
        unfold partShards at hrun
        rw [if_pos (by omega : 0 < u.parityN), hd] at hrun
        cases hrun
  obtain ⟨e, he⟩ := hshards
  unfold putPart
  simp only [Act.bind_apply, Act.ofExcept_apply, Act.query_apply, he]
  cases validateBucketName bucket with
  | error e => exact ⟨e, rfl⟩
  | ok _ =>
    cases validateObjectKey key with
    | error e => exact ⟨e, rfl⟩
    | ok _ =>
      cases validateUploadId uploadId with
      | error e => exact ⟨e, rfl⟩
      | ok _ =>
        dsimp only
        cases readUpload bucket key uploadId s with
        | error e => exact ⟨e, rfl⟩
        | ok upload => exact ⟨e, rfl⟩

theorem readUpload_congr {s t : Disks LocalVolume n}
    (hdir : multipartUploadDir bucket key uploadId = .ok dir)
    (h : ∀ d, (t d).fs.read (dir ++ ["upload.json"]) = (s d).fs.read (dir ++ ["upload.json"])) :
    readUpload bucket key uploadId t = readUpload bucket key uploadId s := by
  unfold readUpload
  rw [hdir]
  simp only [bind, Except.bind, h]

/-! ## Listing the parts -/

theorem isPartMetaName_partMetaFile (number : Int) :
    isPartMetaName (partMetaFile number) = true := by
  unfold isPartMetaName partMetaFile
  rw [String.toList_append, String.toList_append, Bool.and_eq_true, isPrefixOf_iff_prefix,
    isSuffixOf_iff_suffix]
  exact ⟨(prefix_append _ _).trans (prefix_append _ _), suffix_append _ _⟩

/-- A staged part is listed. -/
theorem exists_stagedPart {fs : FileTree FileData} {staging : Path}
    (h : fs.read (staging ++ [partMetaFile number]) = some (.partJson pm)) :
    ∃ p ∈ stagedParts fs staging, p.partNumber = pm.partNumber := by
  have hchild : (partMetaFile number, Lib.TreeEntry.file (FileData.partJson pm)) ∈
      fs.children staging := FileTree.mem_children.mpr (FileTree.read_eq_some.mp h)
  obtain ⟨before, rest, hsplit⟩ := append_of_mem hchild
  unfold stagedParts
  rw [hsplit, foldl_append, foldl_cons]
  -- the loop adds the part unless it has its number, and keeps what it has
  refine foldlRecOn (motive := fun parts : List PartMeta => ∃ p ∈ parts, p.partNumber = pm.partNumber) _ _ ?_
    fun parts hparts child _ => ?_
  · dsimp only
    split_ifs with hnew
    · exact ⟨_, mem_append_right _ mem_cons_self, rfl⟩
    · rw [isPartMetaName_partMetaFile, not_and, not_not] at hnew
      obtain ⟨p, hp, hnumber⟩ := any_eq_true.mp (hnew rfl)
      exact ⟨p, hp, of_decide_eq_true hnumber⟩
  · obtain ⟨p, hp, hnumber⟩ := hparts
    split
    · split_ifs
      · exact ⟨p, mem_append_left _ hp, hnumber⟩
      · exact ⟨p, hp, hnumber⟩
    · exact ⟨p, hp, hnumber⟩

include hdir in
/-- What `list_parts` lists: the parts of the first disk with the staging directory. -/
theorem listParts_eq (hupload : readUpload bucket key uploadId s = .ok upload) :
    listParts bucket key uploadId s = .ok (upload,
      (match (finRange n).find? fun d => (s d).fs.isDir (dir ++ [upload.dataDir]) with
      | some d => stagedParts (s d).fs (dir ++ [upload.dataDir])
      | none => []).insertionSort fun a b => a.partNumber ≤ b.partNumber) := by
  unfold listParts
  rw [hupload, hdir]
  rfl

end Upload

/-! ## What a completed upload holds -/

variable {part : Int × String → PartUpload}

section Object

variable {env : Env} {staging : Path} {m : ObjectMeta}
  {numbers : List Int} {index i : Nat} {v v' : LocalVolume}

include hobj in
/-- The multipart decoder finds the shard a disk had staged, -/
theorem readPart_completed (hmem : u.number ∈ numbers)
    (hpart : PartIn staging (partFileMeta env u i ((u.rows env).getD i [])) ((u.rows env).getD i []) v)
    (hdone : CompletedDisk staging obj bucket key m index numbers v v') :
    readPart bucket key u.number v' = some (i, (u.rows env).getD i []) := by
  have hdescribed := hdone.file u.number hmem _ (Or.inr rfl)
  have hfile := hdone.file u.number hmem _ (Or.inl rfl)
  rw [show v.fs.read (staging ++ [partMetaFile u.number]) = _ from hpart.described,
    Option.some_or] at hdescribed
  rw [show v.fs.read (staging ++ [partFile u.number]) = _ from hpart.data, Option.some_or] at hfile
  unfold readPart readBytes
  rw [hobj]
  dsimp only
  rw [hdescribed, hfile]
  rfl

/-- A disk with no metadata of a part, staged or in the object's directory. -/
def NoPartMeta (staging obj : Path) (number : Int) (v : LocalVolume) : Prop :=
  ∀ pm, v.fs.read (staging ++ [LocalVolume.partMetaFile number]) ≠ some (.partJson pm) ∧
    v.fs.read (obj ++ [LocalVolume.partMetaFile number]) ≠ some (.partJson pm)

include hobj in
/-- and none on such a disk. -/
theorem readPart_noPartMeta (hmem : number ∈ numbers) (hnone : NoPartMeta staging obj number v)
    (hdone : CompletedDisk staging obj bucket key m index numbers v v') :
    readPart bucket key number v' = none := by
  have hdescribed := hdone.file number hmem _ (Or.inr rfl)
  unfold readPart
  rw [hobj]
  dsimp only
  split
  · rename_i pm hread
    rw [hread] at hdescribed
    rcases Option.or_eq_some_iff.mp hdescribed.symm with hstaged | ⟨-, hobject⟩
    · exact absurd hstaged (hnone pm).1
    · exact absurd hobject (hnone pm).2
  · rfl

include hobj in
/-- `stat_object` finds the metadata of the completion. -/
theorem statObject_completed (hinline : m.inlineData = none) (hmarker : m.isDeleteMarker = false)
    (hdone : CompletedDisk staging obj bucket key m index numbers v v') : statObject bucket key v' =
      .ok { m with erasure := { m.erasure with index := index } } := by
  unfold statObject currentVersion readMetaFile
  rw [hobj]
  simp only [bind, Except.bind, hdone.isDir, if_true, hdone.stored, find?_cons, hmarker, Bool.not_false]
  rw [← hinline]

/-- Completing an upload makes an object of `parts`, with shards missing as `absent` says. -/
abbrev Completes (env : Env) (bucket key uploadId : String) (requested : List (Int × String)) (now : Nat)
    (s : Disks LocalVolume n) (parts : List PartUpload) (absent : PartUpload → Finset (Fin n)) : Prop :=
  ∃ m t, completeUpload bucket key uploadId env requested now s = (.ok (m.toInfo bucket key), t) ∧
    (∀ d, statObject bucket key (t d) = .ok { m with erasure := { m.erasure with index := d.val } }) ∧
    m.size = (parts.map PartUpload.data).flatten.length ∧ MultipartObject env bucket key parts absent m t

include hs hlist havailable hnodup hdir hobj in
/-- **Completing distinct parts makes a multipart object** of the shards the disks had staged. A disk that
has none of a part must not have older metadata of it. -/
theorem completeUpload_object {absent : PartUpload → Finset (Fin (n + 1))}
    (hpart : ∀ r ∈ requested, (part r).number = r.1 ∧ (part r).Fits (n + 1) ∧
      (absent (part r)).card ≤ (part r).parityN ∧ (∃ i, stagedMeta (dir ++ [upload.dataDir]) r.1 s =
        some (partFileMeta env (part r) i (((part r).rows env).getD i []))) ∧
      (∀ (i : Nat) d, (partDisks (n + 1) (partOrder bucket key env (part r)))[i]? = some d →
        d ∉ absent (part r) → PartIn (dir ++ [upload.dataDir])
          (partFileMeta env (part r) i (((part r).rows env).getD i []))
          (((part r).rows env).getD i []) (s d)) ∧
      ∀ d ∈ absent (part r), NoPartMeta (dir ++ [upload.dataDir]) obj r.1 (s d))
    (now : Nat) : Completes env bucket key uploadId requested now s (requested.map part) absent := by
  obtain ⟨metas, hmetas⟩ : ∃ metas : Int → PartFileMeta, ∀ r ∈ requested,
      stagedMeta (dir ++ [upload.dataDir]) r.1 s = some (metas r.1) ∧
        ∃ i, metas r.1 = partFileMeta env (part r) i (((part r).rows env).getD i []) := by
    refine ⟨fun number => (stagedMeta (dir ++ [upload.dataDir]) number s).getD
      ⟨0, 0, "", ⟨0, 0, 0, []⟩, ""⟩, fun r hr => ?_⟩
    obtain ⟨i, hi⟩ := (hpart r hr).2.2.2.1
    dsimp only
    rw [hi]
    exact ⟨rfl, i, rfl⟩
  obtain ⟨t, hrun, hdone⟩ := completeUpload_workable hdir hobj hs hlist havailable hnodup env now
    fun r hr => (hmetas r hr).1
  have hdescribes : ∀ r ∈ requested, Describes (part r) (partEntry r.1 (metas r.1)) := by
    intro r hr
    obtain ⟨i, hmeta⟩ := (hmetas r hr).2
    obtain ⟨hdata, hparity⟩ := PartUpload.dataN_of_meta env (part r) i (((part r).rows env).getD i [])
    refine ⟨(hpart r hr).1.symm, ?_, ?_, ?_⟩
    · exact congrArg PartFileMeta.size hmeta
    · exact (congrArg (fun pm => pm.erasure.data) hmeta).trans hdata
    · exact (congrArg (fun pm => pm.erasure.parity) hmeta).trans hparity
  refine ⟨_, t, hrun, fun d => statObject_completed hobj rfl rfl (hdone d), ?_, ?_, ?_, ?_, ?_, ?_⟩
  · rw [length_flatten, map_map, map_map]
    change ((requested.map fun r => partEntry r.1 (metas r.1)).map PartEntry.size).sum = _
    rw [map_map]
    congr 1
    exact map_congr_left fun r hr => (hdescribes r hr).size
  · have hnumbers : (requested.map part).map PartUpload.number = requested.map Prod.fst := by
      rw [map_map]
      exact map_congr_left fun r hr => (hpart r hr).1
    rw [hnumbers]
    exact hnodup
  · change List.Forall₂ Describes (requested.map part) (requested.map fun r => partEntry r.1 (metas r.1))
    rw [forall₂_map_left_iff, forall₂_map_right_iff]
    exact forall₂_same.mpr hdescribes
  · intro u hu
    obtain ⟨r, hr, rfl⟩ := mem_map.mp hu
    exact (hpart r hr).2.1
  · intro u hu
    obtain ⟨r, hr, rfl⟩ := mem_map.mp hu
    exact (hpart r hr).2.2.1
  · intro u hu
    obtain ⟨r, hr, rfl⟩ := mem_map.mp hu
    obtain ⟨hnumber, hfits, -, -, hstored, hnone⟩ := hpart r hr
    obtain ⟨hnd, hlen, hmem⟩ := partDisks_perm (partOrder_perm bucket key env hfits)
    have hlisted : r.1 ∈ requested.map Prod.fst := mem_map_of_mem hr
    refine ⟨hnd, ?_, hmem, fun i d hi hd => ?_, fun d hd => ?_⟩
    · rw [hlen, PartUpload.rows_length, hfits.2.1]
    · exact readPart_completed hobj (hnumber ▸ hlisted) (hstored i d hi hd) (hdone d)
    · rw [hnumber]
      exact readPart_noPartMeta hobj hlisted (hnone d hd) (hdone d)

end Object

/-! ## A whole upload -/

/-- An upload in progress: the disks, and the last acknowledged contents of each part. -/
structure UploadRun (n : Nat) where
  disks : Disks LocalVolume n
  last : Int → Option PartUpload

namespace UploadRun

section Run

variable (env : Env) (bucket key uploadId : String)

/-- One call of `put_part`. -/
def step (s : UploadRun n) (u : PartUpload) : UploadRun n :=
  let r := putPart bucket key uploadId env u s.disks
  ⟨r.2, match r.1 with
    | .ok _ => Function.update s.last u.number (some u)
    | .error _ => s.last⟩

/-- The calls of an upload. -/
def run (uploads : List PartUpload) (s : UploadRun n) : UploadRun n :=
  uploads.foldl (step env bucket key uploadId) s

/-- The last uploads of the listed parts, -/
def listed (last : Int → Option PartUpload) (requested : List (Int × String)) : List PartUpload :=
  requested.filterMap fun r => last r.1

/-- and their contents, one after another. -/
def body (last : Int → Option PartUpload) (requested : List (Int × String)) : Bytes :=
  ((listed last requested).map PartUpload.data).flatten

/-- **Disks that lost shards**: of each listed part at most as many as it has parity shards. -/
def LosesParts (last : Int → Option PartUpload) (requested : List (Int × String))
    (t t' : Disks LocalVolume n) : Prop :=
  ∀ r ∈ requested, ∀ u, last r.1 = some u → ∃ lost : Finset (Fin n), lost.card ≤ u.parityN ∧
    (∀ d, d ∉ lost → LocalVolume.readPart bucket key r.1 (t' d) = LocalVolume.readPart bucket key r.1 (t d)) ∧
    ∀ d ∈ lost, LocalVolume.readPart bucket key r.1 (t' d) = none

end Run

section Last

variable {env : Env} {bucket key uploadId : String} {s : UploadRun n}

/-- The contents of a part are those of the call, or were there. -/
theorem eq_of_step_last {u' : PartUpload} (hlast : (step env bucket key uploadId s u').last number = some u) :
    u = u' ∨ s.last number = some u := by
  unfold step at hlast
  dsimp only at hlast
  cases hput : (putPart bucket key uploadId env u' s.disks).1 with
  | error e =>
    rw [hput] at hlast
    exact Or.inr hlast
  | ok p =>
    rw [hput] at hlast
    dsimp only at hlast
    rw [Function.update_apply] at hlast
    split_ifs at hlast with hnumber
    · exact Or.inl (Option.some.inj hlast).symm
    · exact Or.inr hlast

/-- The contents of a part are those of one of the calls. -/
theorem mem_of_last {uploads : List PartUpload}
    (hu : (run env bucket key uploadId uploads s).last number = some u) :
    u ∈ uploads ∨ s.last number = some u := by
  induction uploads generalizing s with
  | nil => exact Or.inr hu
  | cons u' uploads ih =>
    rcases ih hu with hmem | hlast
    · exact Or.inl (.tail _ hmem)
    · rcases eq_of_step_last hlast with rfl | hthere
      · exact Or.inl mem_cons_self
      · exact Or.inr hthere

end Last

section Invariant

variable {env : Env} {s : UploadRun (n + 1)}

/-- **The invariant.** Every disk has its shard of the last contents of every part. -/
structure Inv (env : Env) (bucket key uploadId : String) (dir obj : Path) (upload : UploadMeta)
    (s : UploadRun (n + 1)) : Prop where
  work : ∀ d, Workable (dir ++ [upload.dataDir]) obj (s.disks d)
  opened : readUpload bucket key uploadId s.disks = .ok upload
  part : ∀ number u, s.last number = some u → u.number = number ∧ u.Fits (n + 1) ∧
    (∀ d, (s.disks d).fs.isDir (dir ++ [upload.dataDir]) = true) ∧
    ∀ (i : Nat) d, (partDisks (n + 1) (partOrder bucket key env u))[i]? = some d →
      PartIn (dir ++ [upload.dataDir]) (partFileMeta env u i ((u.rows env).getD i []))
        ((u.rows env).getD i []) (s.disks d)

include hdir hobj

variable (h : Inv env bucket key uploadId dir obj upload s)

include h in
/-- **One part keeps the invariant.** -/
theorem Inv.step (u : PartUpload) (hn : u.dataN + u.parityN = n + 1) :
    Inv env bucket key uploadId dir obj upload (step env bucket key uploadId s u) := by
  by_cases hfits : u.Fits (n + 1)
  · obtain ⟨t, hrun, hstored⟩ := putPart_workable hdir hobj env h.work h.opened hfits
    have hapart := apart_of_staged hdir hobj (prefix_append dir [upload.dataDir])
    have hstep : UploadRun.step env bucket key uploadId s u =
        ⟨t, Function.update s.last u.number (some u)⟩ := by
      unfold UploadRun.step
      rw [hrun]
    rw [hstep]
    refine ⟨fun d => (h.work d).of_worked hapart (hstored.worked d), ?_, fun number u' hu' => ?_⟩
    · refine (readUpload_congr hdir fun d => ?_).trans h.opened
      refine hstored.other d _ ?_ ?_ <;>
      · intro heq
        have hlen := congrArg length heq
        simp at hlen
    · dsimp only at hu'
      by_cases hnumber : number = u.number
      · subst hnumber
        rw [Function.update_self, Option.some.injEq] at hu'
        subst hu'
        exact ⟨rfl, hfits, hstored.isDir, hstored.part⟩
      · -- the files of the other parts are not touched
        rw [Function.update_of_ne hnumber] at hu'
        obtain ⟨rfl, hfits', hisDir, hpart⟩ := h.part number u' hu'
        exact ⟨rfl, hfits', hstored.isDir,
          fun i d hi => (hpart i d hi).other hapart hnumber (hstored.other d)⟩
  · obtain ⟨e, hrun⟩ := putPart_rejected env bucket key uploadId s.disks hn hfits
    have hstep : UploadRun.step env bucket key uploadId s u = s := by
      unfold UploadRun.step
      rw [hrun]
    rw [hstep]
    exact h

include h in
/-- **An upload keeps the invariant.** -/
theorem Inv.run (uploads : List PartUpload) (hn : ∀ u ∈ uploads, u.dataN + u.parityN = n + 1) :
    Inv env bucket key uploadId dir obj upload (run env bucket key uploadId uploads s) := by
  induction uploads generalizing s with
  | nil => exact h
  | cons u uploads ih =>
    exact ih (h.step hdir hobj u (hn u mem_cons_self)) fun u' hu' => hn u' (.tail _ hu')

include h in
omit hobj in
/-- Every uploaded part is listed. -/
theorem Inv.lists : ∃ available, listParts bucket key uploadId s.disks = .ok (upload, available) ∧
      ∀ number, s.last number ≠ none → ∃ p ∈ available, p.partNumber = number := by
  refine ⟨_, listParts_eq hdir h.opened, fun number hlast => ?_⟩
  obtain ⟨u, hu⟩ := Option.ne_none_iff_exists'.mp hlast
  obtain ⟨rfl, hfits, hisDir, hpart⟩ := h.part number u hu
  have hfirst : (finRange (n + 1)).find? (fun d =>
      (s.disks d).fs.isDir (dir ++ [upload.dataDir])) = some 0 := by
    rw [finRange_succ, find?_cons, hisDir 0]
  rw [hfirst]
  obtain ⟨i, hi⟩ := hfits.exists_row bucket key env 0
  obtain ⟨p, hp, hnumber⟩ := exists_stagedPart (hpart i 0 hi).described
  exact ⟨p, (mem_insertionSort _).mpr hp, hnumber⟩

include h in
omit hdir hobj in
/-- The part as its disks describe it. -/
theorem Inv.stagedMeta (hu : s.last number = some u) :
    ∃ i, Abixio.stagedMeta (dir ++ [upload.dataDir]) number s.disks =
      some (partFileMeta env u i ((u.rows env).getD i [])) := by
  obtain ⟨rfl, hfits, -, hpart⟩ := h.part number u hu
  obtain ⟨j, hj⟩ := hfits.exists_row bucket key env 0
  obtain ⟨pm, hpm⟩ : ∃ pm, Abixio.stagedMeta (dir ++ [upload.dataDir]) u.number s.disks = some pm :=
    stagedMeta_isSome (hpart j 0 hj).described
  obtain ⟨d, hd⟩ := stagedMeta_some hpm
  obtain ⟨i, hi⟩ := hfits.exists_row bucket key env d
  have hdescribed := (hpart i d hi).described
  refine ⟨i, hpm.trans (congrArg some ?_)⟩
  rw [show (s.disks d).fs.read (dir ++ [upload.dataDir] ++ [partMetaFile u.number]) = _
    from hdescribed, Option.some.injEq, FileData.partJson.injEq] at hd
  exact hd.symm

omit hdir hobj in
theorem listed_eq {last : Int → Option PartUpload} (h : ∀ r ∈ requested, last r.1 = some (part r)) :
    listed last requested = requested.map part := by
  rw [← filterMap_eq_map]
  exact filterMap_congr h

include h in
/-- **What completing leaves**: a multipart object whose parts are the last uploads of the listed ones,
with no shard missing. -/
theorem Inv.complete (hnodup : (requested.map Prod.fst).Nodup)
    (huploaded : ∀ r ∈ requested, s.last r.1 ≠ none) (now : Nat) :
    Completes env bucket key uploadId requested now s.disks (listed s.last requested) fun _ => ∅ := by
  obtain ⟨available, hlist, havailable⟩ := h.lists hdir
  have hlast : ∀ r ∈ requested, ∃ u, s.last r.1 = some u := fun r hr =>
    Option.ne_none_iff_exists'.mp (huploaded r hr)
  choose! part hpart using hlast
  rw [listed_eq hpart]
  refine completeUpload_object hdir hobj h.work hlist (fun r hr => havailable r.1 (huploaded r hr)) hnodup
    (fun r hr => ?_) now
  obtain ⟨hnumber, hfits, -, hdisks⟩ := h.part r.1 (part r) (hpart r hr)
  exact ⟨hnumber, hfits, Nat.zero_le _, h.stagedMeta (hpart r hr), fun i d hi _ => hdisks i d hi,
    fun d hd => absurd hd (Finset.notMem_empty d)⟩

/-- **A completed upload is its parts.** On disks where no call fails, after any uploads of parts, with
any layouts over all disks and in any order: completing it with a list of distinct uploaded parts
succeeds, and `read_and_decode_multipart` returns their last contents in the order of the list, also from
disks that lost as many shards of each part as it has parity shards. -/
theorem round_trip {disks : Disks LocalVolume (n + 1)}
    (hwork : ∀ d, Workable (dir ++ [upload.dataDir]) obj (disks d))
    (hopened : readUpload bucket key uploadId disks = .ok upload) (uploads : List PartUpload)
    (hn : ∀ u ∈ uploads, u.dataN + u.parityN = n + 1)
    (hmds : ∀ u ∈ uploads, 0 < u.parityN → (env.code u.dataN u.parityN).Mds u.dataN u.parityN)
    (requested : List (Int × String)) (hnodup : (requested.map Prod.fst).Nodup)
    (huploaded : ∀ r ∈ requested,
      (run env bucket key uploadId uploads ⟨disks, fun _ => none⟩).last r.1 ≠ none) (now : Nat) :
    let s' := run env bucket key uploadId uploads ⟨disks, fun _ => none⟩
    ∃ info t, completeUpload bucket key uploadId env requested now s'.disks = (.ok info, t) ∧
      ∀ d, ∃ m, Backend.statObject bucket key (t d) = .ok m ∧
        m.size = (body s'.last requested).length ∧
        ∀ t' : Disks LocalVolume (n + 1), LosesParts bucket key s'.last requested t t' →
          readAndDecodeMultipart env t' bucket key m = .ok (body s'.last requested) := by
  intro s'
  have hinv : Inv env bucket key uploadId dir obj upload s' :=
    Inv.run hdir hobj ⟨hwork, hopened, fun _ _ h => by cases h⟩ uploads hn
  obtain ⟨m, t, hrun, hstat, hsize, hobject⟩ := hinv.complete hdir hobj hnodup huploaded now
  refine ⟨_, t, hrun, fun d => ⟨_, hstat d, hsize, fun t' hloses => ?_⟩⟩
  have hlost : ∀ u ∈ listed s'.last requested, ∃ lost : Finset (Fin (n + 1)), lost.card ≤ u.parityN ∧
      ShardsRead bucket key u.number (u.rows env)
        (partDisks (n + 1) (partOrder bucket key env u)) lost t' := by
    intro u hu
    obtain ⟨r, hr, hlast⟩ := mem_filterMap.mp hu
    obtain ⟨hnumber, -⟩ := hinv.part r.1 u hlast
    obtain ⟨lost, hcard, hkept, hgone⟩ := hloses r hr u hlast
    have hshards := hobject.shards u hu
    refine ⟨lost, hcard, hshards.nodup, hshards.length, hshards.all, fun i d hi hd => ?_, fun d hd => ?_⟩
    · rw [hnumber, hkept d hd, ← hnumber]
      exact hshards.kept i d hi (Finset.notMem_empty d)
    · rw [hnumber]
      exact hgone d hd
  choose! lost hcard hshards using hlost
  refine MultipartObject.decode ⟨hobject.nodup, hobject.entries, hobject.fits, hcard, hshards⟩ fun u hu => ?_
  obtain ⟨r, -, hlast⟩ := mem_filterMap.mp hu
  exact hmds u ((mem_of_last hlast).resolve_right fun h => by cases h)

end Invariant

/-! ## Two parts on two disks -/

/-- An upload of the object `k`. -/
def sampleUpload : UploadMeta where
  uploadId := "00000000-0000-4000-8000-000000000001"
  bucket := "bkt"
  key := "k"
  contentType := "application/octet-stream"
  userMetadata := []
  createdAt := 1
  dataDir := "00000000-0000-4000-8000-000000000002"

/-- Two disks with the upload. -/
def sampleStaged : Disks LocalVolume 2 := (createUpload sampleUpload sampleDisks).2

/-- The directory of the upload. -/
def sampleUploadDir : Path := [".abixio.sys", "multipart", "bkt", "k", sampleUpload.uploadId]

theorem sampleStaged_workable (d : Fin 2) :
    Workable (sampleUploadDir ++ [sampleUpload.dataDir]) ["bkt", "k"] (sampleStaged d) := by
  apply Workable.of_entries
  revert d
  decide +kernel

/-- Part 2 is uploaded twice, -/
def sampleParts : List PartUpload := [⟨1, 1, 1, utf8 "x"⟩, ⟨2, 1, 1, utf8 "x"⟩, ⟨2, 1, 1, utf8 "y"⟩]

/-- and listed before part 1. -/
def sampleListed : List (Int × String) :=
  [(2, "415290769594460e2e485922904f345d"), (1, "9dd4e461268c8034f5c8564e155c67a6")]

/-- The run of the calls. -/
def sampleRun : UploadRun 2 :=
  run sampleEnv "bkt" "k" sampleUpload.uploadId sampleParts ⟨sampleStaged, fun _ => none⟩

theorem round_trip_sample :
    ∃ info t, completeUpload "bkt" "k" sampleUpload.uploadId sampleEnv sampleListed 9 sampleRun.disks =
        (.ok info, t) ∧ ∀ d : Fin 2, ∃ m, Backend.statObject "bkt" "k" (t d) = .ok m ∧ m.size = 2 ∧
        ∀ t' : Disks LocalVolume 2, LosesParts "bkt" "k" sampleRun.last sampleListed t t' →
          readAndDecodeMultipart sampleEnv t' "bkt" "k" m = .ok (utf8 "yx") := by
  obtain ⟨hopened, huploaded, hbody⟩ :
      readUpload "bkt" "k" sampleUpload.uploadId sampleStaged = .ok sampleUpload ∧
      (∀ r ∈ sampleListed, sampleRun.last r.1 ≠ none) ∧
      body sampleRun.last sampleListed = utf8 "yx" := by
    decide +kernel
  have hmds : ∀ u ∈ sampleParts, 0 < u.parityN →
      (sampleEnv.code u.dataN u.parityN).Mds u.dataN u.parityN := by
    intro u hu _
    simp only [sampleParts, mem_cons, not_mem_nil, or_false] at hu
    rcases hu with rfl | rfl | rfl <;> exact replication_mds _
  obtain ⟨info, t, hrun, hread⟩ := round_trip
    (show multipartUploadDir "bkt" "k" sampleUpload.uploadId = .ok sampleUploadDir by decide +kernel)
    (show objectDir "bkt" "k" = .ok ["bkt", "k"] by decide +kernel) sampleStaged_workable hopened
    sampleParts (by decide) hmds sampleListed (by decide) huploaded 9
  refine ⟨info, t, hrun, fun d => ?_⟩
  obtain ⟨m, hm, hsize, hdecode⟩ := hread d
  have hlast : (run sampleEnv "bkt" "k" sampleUpload.uploadId sampleParts
    ⟨sampleStaged, fun _ => none⟩) = sampleRun := rfl
  rw [hlast, hbody] at hsize hdecode
  exact ⟨m, hm, hsize, hdecode⟩

end UploadRun

end Abixio
