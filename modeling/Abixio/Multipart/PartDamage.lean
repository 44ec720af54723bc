import Abixio.Multipart.Completion

/-!
# Damaged parts

`read_and_decode_multipart` (`src/storage/erasure_decode.rs:311-379`) takes every shard it finds:
`part.N.meta` records a checksum of each shard (`src/multipart/mod.rs:112-142`), but no read compares it.
A damaged shard is not an erasure, so the parity shards do not repair it.

* With all shards of a part present nothing is reconstructed. The part is the join of its data shards as
  they are, so a damaged shard shows exactly when it holds bytes of the part (`Holds`).
* With a shard missing, a damaged one is an input of the reconstruction, which fails when it has lost
  bytes.
* No amount of damage that keeps the lengths makes a read fail.

`tolerates_iff` puts this together, for any damage on the disks of each part.
-/

namespace Abixio

open Lib List LocalVolume
open PartUpload (data length_of_mem_rows number)
open UploadRun (listed sampleRun sampleUpload sampleUploadDir)

/-! ## Reading a multipart object -/

variable {keep : Nat → Bool} {i : Nat} {part : PartEntry}

section Damage

variable {n : Nat} {env : Env} {bucket key : String} {u : PartUpload} {parts : List PartUpload}
  {rows : List Bytes} {distribution : List (Fin n)} {lost : Finset (Fin n)} {disks disks' : Disks LocalVolume n}

/-- GET and streaming GET of a multipart object are its decoded parts. -/
theorem getObject_multipart {p : Pool LocalVolume n} {m : ObjectMeta}
    (hcheck : checkKey bucket key none p = .ok ()) (hw : cachedWrite bucket key p = none)
    (hr : cachedRead bucket key p = none) (hstat : firstStat bucket key p = some m)
    (hm : m.isMultipart = true) :
    (getObject env bucket key p).1 = (readAndDecodeMultipart env p.disks bucket key m).map
        (fun data => (data, m.toInfo bucket key)) ∧
      streamedObject env bucket key p = (readAndDecodeMultipart env p.disks bucket key m).map
        fun data => (m.toInfo bucket key, .ok data) := by
  rw [getObject_fst, streamedObject_eq, hcheck]
  simp only [Except.bind, hw, hr]
  constructor
  · unfold getStored
    simp only [Act.bind_apply, Act.read_apply, hstat, hm, if_true]
    exact getMultipart_fst m p
  · unfold streamStored
    simp only [Act.bind_apply, Act.read_apply, hstat, hm, if_true]
    have hfst : (getMultipart env bucket key m p).1 = _ := getMultipart_fst m p
    cases hget : getMultipart env bucket key m p with
    | mk r p' =>
      rw [hget] at hfst
      subst hfst
      cases readAndDecodeMultipart env p.disks bucket key m with
      | error e => rfl
      | ok data =>
        simp only [Except.map, Act.pure_apply]
        rw [show streamBytes [Except.ok data] = .ok data from (streamBytes_ok [data]).trans (by simp)]

/-! ## Repairing the shards that were found -/

/-- Nothing is reconstructed when nothing is missing. -/
theorem repairSlots_kept {dataN parityN : Nat} (hrows : rows.length = dataN + parityN)
    (hkeep : ∀ i, i < rows.length → keep i = true) :
    repairSlots env dataN parityN (keepRows keep rows) = .ok (rows.map some) := by
  rw [keepRows_all _ hkeep]
  exact repairSlots_full hrows

/-- Shards of one length are completed to shards of that length. -/
theorem repairSlots_length {dataN parityN len : Nat} (hd : 0 < dataN) (hlen : 0 < len)
    (hlayout : parityN = 0 ∨ RsAccepts dataN parityN) (hrows : rows.length = dataN + parityN)
    (hall : ∀ r ∈ rows, r.length = len)
    (hcount : dataN ≤ ((range rows.length).filter keep).length) :
    ∃ rows' : List Bytes, repairSlots env dataN parityN (keepRows keep rows) = .ok (rows'.map some) ∧
      rows'.length = dataN + parityN ∧ ∀ r ∈ rows'.take dataN, r.length = len := by
  have hpresent := keepRows_count keep rows
  have hkept : ∀ r, some r ∈ keepRows keep rows → r.length = len := fun r hr =>
    hall r (mem_of_mem_keepRows hr)
  by_cases hmissing : ((keepRows keep rows).filter Option.isSome).length < dataN + parityN
  · have hparity : 0 < parityN := by omega
    refine ⟨reconstructRows (env.code dataN parityN) dataN parityN len (keepRows keep rows), ?_,
      reconstructRows_length _ _ _ _ _, fun r hr => ?_⟩
    · unfold repairSlots
      rw [if_pos ⟨hparity, hmissing⟩, rsFor_of_layout hlayout,
        rsReconstruct_missing hd hlen (by rw [keepRows_length, hrows]) hkept (by omega) (by omega)]
      rfl
    · exact reconstructRows_row_length hr hkept
  · refine ⟨rows, repairSlots_kept hrows fun i hi => ?_, hrows, fun r hr => hall r (mem_of_mem_take hr)⟩
    have hle := length_filter_le keep (range rows.length)
    rw [length_range] at hle
    have hfull : ((range rows.length).filter keep).length = (range rows.length).length := by
      rw [length_range]
      omega
    exact length_filter_eq_length_iff.mp hfull i (mem_range.mpr hi)

/-- A present shard without bytes stops a reconstruction. -/
theorem repairSlots_emptied {dataN parityN : Nat}
    (hlayout : parityN = 0 ∨ RsAccepts dataN parityN) (hrows : rows.length = dataN + parityN)
    (hmissing : ((range rows.length).filter keep).length < dataN + parityN) (hparity : 0 < parityN)
    (hkeep : keep i = true) (hnil : rows[i]? = some []) :
    repairSlots env dataN parityN (keepRows keep rows) = .error .readQuorum := by
  have hmem : some [] ∈ keepRows keep rows := by
    refine mem_of_getElem? (i := i) ?_
    rw [keepRows_getElem?, hnil, Option.map_some, hkeep, if_pos rfl]
  obtain ⟨e, he⟩ := checkPresent_of_nil none hmem
  unfold repairSlots
  rw [if_pos ⟨hparity, by rw [keepRows_count]; exact hmissing⟩, rsFor_of_layout hlayout]
  unfold rsReconstruct
  rw [checkPieceCount_ok (by rw [keepRows_length, hrows]), he]
  rfl

/-! ## Decoding a damaged part -/

/-- The shards of a part, changed on the damaged disks. -/
def rotRows (distribution : List (Fin n)) (damaged : Finset (Fin n)) (f : Fin n → Bytes → Bytes)
    (rows : List Bytes) : List Bytes :=
  rows.mapIdx fun i r =>
    match distribution[i]? with
    | some d => if d ∈ damaged then f d r else r
    | none => r

variable {damaged : Finset (Fin n)} {f : Fin n → Bytes → Bytes} {d : Fin n}

@[simp] theorem rotRows_length : (rotRows distribution damaged f rows).length = rows.length := by
  simp [rotRows]

theorem rotRows_of_mem (hi : distribution[i]? = some d) (hd : d ∈ damaged) :
    (rotRows distribution damaged f rows)[i]? = rows[i]?.map (f d) := by
  simp [rotRows, getElem?_mapIdx, hi, hd]

theorem rotRows_of_notMem (h : ∀ d, distribution[i]? = some d → d ∉ damaged) :
    (rotRows distribution damaged f rows)[i]? = rows[i]? := by
  unfold rotRows
  rw [getElem?_mapIdx]
  cases hi : distribution[i]? with
  | none => simp
  | some d => simp [h d hi]

theorem rotRows_empty (h : damaged = ∅) : rotRows distribution damaged f rows = rows :=
  ext_getElem? fun _ => rotRows_of_notMem fun d _ => h ▸ Finset.notMem_empty d

/-- **Changed shards are found where the shards were.** -/
theorem ShardsRead.rot {number : Int} (h : ShardsRead bucket key number rows distribution lost disks)
    (hread : ∀ d, readPart bucket key number (disks' d) = (readPart bucket key number (disks d)).map
        fun r => (r.1, if d ∈ damaged then f d r.2 else r.2)) :
    ShardsRead bucket key number (rotRows distribution damaged f rows) distribution lost disks' := by
  refine ⟨h.nodup, h.length.trans rotRows_length.symm, h.all, fun i d hi hd => ?_, fun d hd => ?_⟩
  · have hlt : i < rows.length := h.length ▸ (List.getElem?_eq_some_iff.mp hi).1
    rw [hread, h.kept i d hi hd, Option.map_some, getD_eq_getElem?_getD, getD_eq_getElem?_getD]
    by_cases hmem : d ∈ damaged
    · rw [rotRows_of_mem hi hmem, if_pos hmem, getElem?_eq_getElem hlt]
      rfl
    · rw [rotRows_of_notMem fun d' hd' => Option.some.inj (hi.symm.trans hd') ▸ hmem, if_neg hmem]
  · rw [hread, h.lost d hd]
    rfl

/-- A part with all its shards is the join of its data shards, as they are. -/
theorem ShardsRead.decode_full (h : ShardsRead bucket key u.number rows distribution ∅ disks)
    (hrows : rows.length = u.dataN + u.parityN) (hpart : Describes u part) :
    decodePart env disks bucket key part = .ok ((rows.take u.dataN).flatten.take u.data.length) := by
  rw [h.decodePart_eq hrows (Nat.zero_le _) hpart, repairSlots_kept hrows fun i hi => ?_]
  · exact congrArg (fun data => Except.ok (data.take u.data.length)) (joinShards_map_some _ _)
  · unfold survives
    rw [getElem?_eq_getElem (h.length.symm ▸ hi)]
    exact decide_eq_true (Finset.notMem_empty _)

variable (h : ShardsRead bucket key u.number rows distribution lost disks)

include h in
/-- A part whose shards have kept their length is decoded to something of its size. -/
theorem ShardsRead.decode_length (hfits : u.Fits n) (hlost : lost.card ≤ u.parityN)
    (hrows : rows.length = u.dataN + u.parityN)
    (hall : ∀ r ∈ rows, r.length = shardSize u.data.length u.dataN) :
    ∃ data : Bytes, data.length = u.data.length ∧
      ∀ part, Describes u part → decodePart env disks bucket key part = .ok data := by
  have hcount := le_survives_count h.nodup (h.length.trans hrows) hlost
  rw [h.length] at hcount
  obtain ⟨rows', hrepair, hlen, hdata⟩ : ∃ rows' : List Bytes,
      repairSlots env u.dataN u.parityN (keepRows (survives distribution lost) rows) = .ok (rows'.map some) ∧
        rows'.length = u.dataN + u.parityN ∧
        ∀ r ∈ rows'.take u.dataN, r.length = shardSize u.data.length u.dataN :=
    repairSlots_length hfits.1 (shardSize_pos u.data.length u.dataN) hfits.2.2 hrows hall hcount
  refine ⟨(rows'.take u.dataN).flatten.take u.data.length, ?_, fun part hpart => ?_⟩
  · have hsum : (rows'.take u.dataN).flatten.length = u.dataN * shardSize u.data.length u.dataN := by
      rw [length_flatten, map_eq_replicate_iff.mpr hdata, sum_replicate, length_take, hlen]
      simp
    rw [length_take, hsum, Nat.min_eq_left (le_mul_shardSize hfits.1 _)]
  · rw [h.decodePart_eq hrows hlost hpart, hrepair]
    exact congrArg (fun data => Except.ok (data.take u.data.length)) (joinShards_map_some _ _)

include h in
/-- A part that misses a shard cannot be decoded with another one emptied. -/
theorem ShardsRead.decode_emptied (hfits : u.Fits n) (hlost : lost.card ≤ u.parityN)
    (hrows : rows.length = u.dataN + u.parityN) (hmissing : lost.Nonempty) (hi : distribution[i]? = some d)
    (hd : d ∉ lost) (hnil : rows[i]? = some []) (hpart : Describes u part) :
    decodePart env disks bucket key part = .error .readQuorum := by
  obtain ⟨d', hd'⟩ := hmissing
  obtain ⟨j, hj⟩ := mem_iff_getElem?.mp (h.all d')
  have hjlt : j < rows.length := h.length ▸ (List.getElem?_eq_some_iff.mp hj).1
  rw [h.decodePart_eq hrows hlost hpart, repairSlots_emptied hfits.2.2 hrows ?_ ?_ ?_ hnil]
  · rfl
  · refine lt_of_le_of_ne ?_ fun hfull => ?_
    · rw [← hrows]
      exact (length_filter_le _ _).trans (by rw [length_range])
    · have hall := length_filter_eq_length_iff.mp
        (hfull.trans (hrows.symm.trans length_range.symm)) j (mem_range.mpr hjlt)
      unfold survives at hall
      rw [hj] at hall
      exact of_decide_eq_true hall hd'
  · exact lt_of_lt_of_le (Finset.card_pos.mpr ⟨d', hd'⟩) hlost
  · unfold survives
    rw [hi]
    exact decide_eq_true hd

/-! ## Damage on the disks -/

/-- Shard `i` of a part holds bytes of it, and not only padding or parity. -/
def PartUpload.Holds (u : PartUpload) (i : Nat) : Prop :=
  i < u.dataN ∧ i * shardSize u.data.length u.dataN < u.data.length

/-- **Damaged part files.** The contents of `part.N` changed on exactly the disks `damaged` names for the
part. What describes the object and its shards is intact, and no cache has the object. -/
structure Damages (bucket key : String) (parts : List PartUpload) (damaged : PartUpload → Finset (Fin n))
    (p p' : Pool LocalVolume n) : Prop where
  check : checkKey bucket key none p' = checkKey bucket key none p
  write : cachedWrite bucket key p' = none
  read : cachedRead bucket key p' = none
  stat : ∀ d, LocalVolume.statObject bucket key (p'.disks d) = LocalVolume.statObject bucket key (p.disks d)
  kept : ∀ u ∈ parts, ∀ d, d ∉ damaged u →
    LocalVolume.readPart bucket key u.number (p'.disks d) = LocalVolume.readPart bucket key u.number (p.disks d)
  changed : ∀ u ∈ parts, ∀ d ∈ damaged u, ∃ i data data',
    LocalVolume.readPart bucket key u.number (p.disks d) = some (i, data) ∧
      LocalVolume.readPart bucket key u.number (p'.disks d) = some (i, data') ∧ data' ≠ data

/-- Both GETs return these bytes. -/
def BothReturn (env : Env) (bucket key : String) (data : Bytes) (p : Pool LocalVolume n) : Prop :=
  (∃ info, (getObject env bucket key p).1 = .ok (data, info)) ∧
    ∃ info, streamedObject env bucket key p = .ok (info, .ok data)

/-- Both GETs fail. -/
def BothFail (env : Env) (bucket key : String) (p : Pool LocalVolume n) : Prop :=
  (∀ r, (getObject env bucket key p).1 ≠ .ok r) ∧
    ∀ info data, streamedObject env bucket key p ≠ .ok (info, .ok data)

/-- **Tolerance of damage on given disks.** Both GETs return the parts, whatever the damage, unless it is
on more disks of a part than it has parity shards; then both fail. -/
def Tolerates (env : Env) (bucket key : String) (parts : List PartUpload)
    (damaged : PartUpload → Finset (Fin n)) (p : Pool LocalVolume n) : Prop :=
  ∀ p', Damages bucket key parts damaged p p' → ((∀ u ∈ parts, (damaged u).card ≤ u.parityN) →
      BothReturn env bucket key (parts.map PartUpload.data).flatten p') ∧
    ((∃ u ∈ parts, u.parityN < (damaged u).card) → BothFail env bucket key p')

/-- The shards that are read of a damaged part. -/
theorem Damages.shards {damaged : PartUpload → Finset (Fin n)} {p p' : Pool LocalVolume n}
    (h : Damages bucket key parts damaged p p') (hu : u ∈ parts)
    (hread : ShardsRead bucket key u.number rows distribution lost p.disks) :
    ∃ f, ShardsRead bucket key u.number (rotRows distribution (damaged u) f rows) distribution lost
      p'.disks := by
  refine ⟨fun d _ => ((readPart bucket key u.number (p'.disks d)).map Prod.snd).getD [],
    hread.rot fun d => ?_⟩
  by_cases hd : d ∈ damaged u
  · obtain ⟨i, data, data', hold, hnew, -⟩ := h.changed u hu d hd
    rw [hold, hnew, Option.map_some, if_pos hd]
    rfl
  · simp only [if_neg hd, h.kept u hu d hd, Option.map_id']

/-- A file with other bytes in it. -/
def rotContent (f : Bytes → Bytes) : FileData → FileData
  | .bytes data => .bytes (f data)
  | other => other

/-- The contents of a part file after damage, and of any other file. -/
def rotFile (obj : Path) (parts : List PartUpload) (damaged : PartUpload → Finset (Fin n))
    (f : PartUpload → Bytes → Bytes) (d : Fin n) (path : Path) (content : FileData) : FileData :=
  match parts.find? fun u => path = obj ++ [LocalVolume.partFile u.number] with
  | some u => if d ∈ damaged u then rotContent (f u) content else content
  | none => content

/-- The pool with damaged part files. -/
def rotPool (obj : Path) (parts : List PartUpload) (damaged : PartUpload → Finset (Fin n))
    (f : PartUpload → Bytes → Bytes) (p : Pool LocalVolume n) : Pool LocalVolume n :=
  { p with disks := fun d =>
      { p.disks d with fs := (p.disks d).fs.mapFiles (rotFile obj parts damaged f d) } }

section Rot

variable {damaged : PartUpload → Finset (Fin n)} {p : Pool LocalVolume n} {obj : Path}
  {f : PartUpload → Bytes → Bytes} {content : FileData}

theorem rotFile_of_ne {path : Path} (h : ∀ u ∈ parts, path ≠ obj ++ [partFile u.number]) :
    rotFile obj parts damaged f d path content = content := by
  unfold rotFile
  rw [find?_eq_none.mpr fun u hu hpath => h u hu (of_decide_eq_true hpath)]

theorem rotFile_part (hnodup : (parts.map number).Nodup) (hu : u ∈ parts) :
    rotFile obj parts damaged f d (obj ++ [partFile u.number]) content =
      if d ∈ damaged u then rotContent (f u) content else content := by
  have hfind : (parts.find? fun u' =>
      obj ++ [partFile u.number] = obj ++ [partFile u'.number]) = some u := by
    cases hfound : parts.find? fun u' =>
        obj ++ [partFile u.number] = obj ++ [partFile u'.number] with
    | none => exact absurd (decide_eq_true rfl) (find?_eq_none.mp hfound u hu)
    | some u' =>
      have hname : obj ++ [partFile u.number] = obj ++ [partFile u'.number] := by
        simpa using find?_some hfound
      have hnumber := partFile_injective (cons.inj (append_cancel_left hname)).1
      rw [inj_on_of_nodup_map hnodup hu (mem_of_find?_eq_some hfound) hnumber]
  unfold rotFile
  rw [hfind]

/-- The shards of a damaged pool. -/
theorem readPart_rotPool (hobj : objectDir bucket key = .ok obj)
    (hnodup : (parts.map number).Nodup) (hu : u ∈ parts) (d : Fin n) :
    readPart bucket key u.number ((rotPool obj parts damaged f p).disks d) =
      (readPart bucket key u.number (p.disks d)).map
        fun r => (r.1, if d ∈ damaged u then f u r.2 else r.2) := by
  unfold readPart readBytes
  rw [hobj]
  dsimp only [rotPool]
  rw [FileTree.read_mapFiles, FileTree.read_mapFiles]
  have hmeta : ∀ content, rotFile obj parts damaged f d (obj ++ [partMetaFile u.number]) content =
      content := by
    intro content
    refine rotFile_of_ne fun u' _ heq => ?_
    rw [append_cancel_left_eq, cons.injEq] at heq
    exact partFile_ne_partMetaFile _ _ heq.1.symm
  rcases (p.disks d).fs.read (obj ++ [partMetaFile u.number]) with _ | content
  · rfl
  rw [Option.map_some, hmeta]
  cases content with
  | partJson pm =>
    rcases (p.disks d).fs.read (obj ++ [partFile u.number]) with _ | data
    · rfl
    rw [Option.map_some, rotFile_part hnodup hu]
    by_cases hd : d ∈ damaged u
    · rw [if_pos hd]
      cases data <;> simp [rotContent, hd]
    · simp only [if_neg hd, Option.map_id']
  | _ => rfl

/-- **Every choice of changed contents is a damage.** -/
theorem damages_rotPool (hobj : objectDir bucket key = .ok obj)
    (hnodup : (parts.map number).Nodup) (hw : cachedWrite bucket key p = none)
    (hr : cachedRead bucket key p = none) (hf : ∀ u ∈ parts, ∀ d ∈ damaged u, ∃ i data,
      readPart bucket key u.number (p.disks d) = some (i, data) ∧ f u data ≠ data) :
    Damages bucket key parts damaged p (rotPool obj parts damaged f p) := by
  have hbucket : ∀ d, Backend.bucketExists bucket ((rotPool obj parts damaged f p).disks d) =
      Backend.bucketExists bucket (p.disks d) := by
    intro d
    change LocalVolume.bucketExists bucket _ = LocalVolume.bucketExists bucket _
    unfold LocalVolume.bucketExists
    dsimp only [rotPool]
    simp only [FileTree.isDir_mapFiles]
  have hhead : headBucket bucket (rotPool obj parts damaged f p) = headBucket bucket p := by
    unfold headBucket
    simp only [hbucket]
  refine ⟨checkKey_congr hhead none, hw, hr, fun d => ?_, fun u hu d hd => ?_, fun u hu d hd => ?_⟩
  · have hmeta : ∀ content, rotFile obj parts damaged f d (obj ++ ["meta.json"]) content = content := by
      intro content
      refine rotFile_of_ne fun u' _ heq => ?_
      rw [append_cancel_left_eq, cons.injEq] at heq
      exact (part_ne_meta u'.number).1 heq.1.symm
    have hsame : ((rotPool obj parts damaged f p).disks d).fs.read (obj ++ ["meta.json"]) =
        (p.disks d).fs.read (obj ++ ["meta.json"]) := by
      dsimp only [rotPool]
      rw [FileTree.read_mapFiles, funext hmeta, Option.map_id']
    have hdir : ((rotPool obj parts damaged f p).disks d).fs.isDir obj = (p.disks d).fs.isDir obj :=
      FileTree.isDir_mapFiles _ _ _
    unfold LocalVolume.statObject LocalVolume.currentVersion readMetaFile
    rw [hobj]
    simp only [bind, Except.bind, hsame, hdir]
  · rw [readPart_rotPool hobj hnodup hu]
    simp only [if_neg hd, Option.map_id']
  · obtain ⟨i, data, hread, hne⟩ := hf u hu d hd
    refine ⟨i, data, f u data, hread, ?_, hne⟩
    rw [readPart_rotPool hobj hnodup hu, hread, Option.map_some, if_pos hd]

end Rot

/-! ## Which damage is tolerated -/

/-- Each byte changed. -/
def flipBytes (data : Bytes) : Bytes := data.map (· + 1)

theorem flipBytes_head? {data : Bytes} (h : 0 < data.length) : (flipBytes data).head? ≠ data.head? := by
  cases data with
  | nil => exact absurd h (lt_irrefl 0)
  | cons x data =>
    intro heq
    have hx : x + 1 = x := Option.some.inj heq
    simp at hx

theorem flipBytes_ne {data : Bytes} (h : 0 < data.length) : flipBytes data ≠ data :=
  fun heq => flipBytes_head? h (congrArg head? heq)

theorem length_of_mem_flipped {r : Bytes}
    (hr : r ∈ rotRows distribution damaged (fun _ => flipBytes) (u.rows env)) :
    r.length = shardSize u.data.length u.dataN := by
  obtain ⟨i, hi, rfl⟩ := mem_mapIdx.mp hr
  have hrow := length_of_mem_rows (getElem_mem hi)
  split
  · split_ifs
    · exact (length_map _).trans hrow
    · exact hrow
  · exact hrow

/-- Damage outside the bytes of a part does not show, -/
theorem flatten_rotRows (hfits : u.Fits n)
    (h : ∀ i d, distribution[i]? = some d → d ∈ damaged → ¬ u.Holds i) :
    ((rotRows distribution damaged f (u.rows env)).take u.dataN).flatten.take u.data.length = u.data := by
  have hagree : ((rotRows distribution damaged f (u.rows env)).take u.dataN).flatten.take u.data.length =
      ((u.rows env).take u.dataN).flatten.take u.data.length := by
    refine flatten_take_congr (fun r hr => length_of_mem_rows (mem_of_mem_take hr))
      fun i hi => ?_
    by_cases hd : i < u.dataN
    · rw [getElem?_take_of_lt hd, getElem?_take_of_lt hd]
      exact rotRows_of_notMem fun d hget hmem => h i d hget hmem ⟨hd, hi⟩
    · rw [getElem?_take_eq_none (Nat.not_lt.mp hd), getElem?_take_eq_none (Nat.not_lt.mp hd)]
  rw [hagree, ← joinShards_map_some]
  exact joinShards_rows hfits

/-- and a changed first byte of a shard that holds bytes does. -/
theorem flatten_rotRows_ne (hfits : u.Fits n) (hi : distribution[i]? = some d)
    (hd : d ∈ damaged) (hholds : u.Holds i) :
    ((rotRows distribution damaged (fun _ => flipBytes) (u.rows env)).take u.dataN).flatten.take
      u.data.length ≠ u.data := by
  intro heq
  have hjoin : ((u.rows env).take u.dataN).flatten.take u.data.length = u.data := by
    rw [← joinShards_map_some]
    exact joinShards_rows hfits
  have hsize : ∀ r ∈ (u.rows env).take u.dataN, r.length = shardSize u.data.length u.dataN :=
    fun r hr => length_of_mem_rows (mem_of_mem_take hr)
  have hlt : i < (u.rows env).length := by
    rw [PartUpload.rows_length]
    exact Nat.lt_add_right _ hholds.1
  have hhead := head?_of_flatten_take (shardSize_pos u.data.length u.dataN)
    (fun r hr => length_of_mem_flipped (mem_of_mem_take hr)) hsize (heq.trans hjoin.symm) hholds.2
  rw [getElem?_take_of_lt hholds.1, getElem?_take_of_lt hholds.1, rotRows_of_mem hi hd,
    getElem?_eq_getElem hlt] at hhead
  refine flipBytes_head? ?_ hhead
  rw [length_of_mem_rows (getElem_mem hlt)]
  exact shardSize_pos _ _

section Tolerance

variable {damaged absent : PartUpload → Finset (Fin n)} {p p' : Pool LocalVolume n} {m : ObjectMeta}
  {obj : Path}

/-- Every part has its entry. -/
theorem exists_describes {entries : List PartEntry} (h : List.Forall₂ Describes parts entries)
    (hu : u ∈ parts) : ∃ part ∈ entries, Describes u part := by
  induction h with
  | nil => exact absurd hu not_mem_nil
  | cons hpart _ ih =>
    rcases mem_cons.mp hu with rfl | hu
    · exact ⟨_, mem_cons_self, hpart⟩
    · obtain ⟨part, hmem, hdescribes⟩ := ih hu
      exact ⟨part, .tail _ hmem, hdescribes⟩

/-- **A pool that serves a multipart object from its disks.** -/
structure ServesMultipart (env : Env) (bucket key : String) (parts : List PartUpload)
    (absent : PartUpload → Finset (Fin n)) (m : ObjectMeta) (obj : Path) (p : Pool LocalVolume n) :
    Prop where
  dir : objectDir bucket key = .ok obj
  object : MultipartObject env bucket key parts absent m p.disks
  nonempty : parts ≠ []
  mds : ∀ u ∈ parts, 0 < u.parityN → (env.code u.dataN u.parityN).Mds u.dataN u.parityN
  check : checkKey bucket key none p = .ok ()
  stat : firstStat bucket key p = some m
  write : cachedWrite bucket key p = none
  read : cachedRead bucket key p = none

/-- **A pool serves what an upload completed to**, when no cache has the key. -/
theorem MultipartObject.serves {n : Nat} {absent : PartUpload → Finset (Fin (n + 1))}
    {t : Disks LocalVolume (n + 1)} {p : Pool LocalVolume (n + 1)} (hobj : objectDir bucket key = .ok obj)
    (h : MultipartObject env bucket key parts absent m t) (hne : parts ≠ [])
    (hstat : ∀ d, LocalVolume.statObject bucket key (t d) =
      .ok { m with erasure := { m.erasure with index := d.val } })
    (hmds : ∀ u ∈ parts, 0 < u.parityN → (env.code u.dataN u.parityN).Mds u.dataN u.parityN)
    (hdisks : p.disks = t) (hcheck : checkKey bucket key none p = .ok ())
    (hw : cachedWrite bucket key p = none) (hr : cachedRead bucket key p = none) :
    ∃ m', ServesMultipart env bucket key parts absent m' obj p := by
  refine ⟨{ m with erasure := { m.erasure with index := (0 : Fin (n + 1)).val } }, hobj,
    ⟨h.nodup, h.entries, h.fits, h.few, hdisks ▸ h.shards⟩, hne, hmds, hcheck, ?_, hw, hr⟩
  unfold firstStat
  rw [hdisks, finRange_succ, findSome?_cons,
    show Backend.statObject bucket key (t 0) = _ from hstat 0]
  rfl

variable (hp : ServesMultipart env bucket key parts absent m obj p)

include hp in
/-- The object is multipart. -/
theorem ServesMultipart.isMultipart : m.isMultipart = true := by
  unfold ObjectMeta.isMultipart
  cases hentries : m.parts with
  | nil =>
    have hforall := hp.object.entries
    rw [hentries, forall₂_nil_right_iff] at hforall
    exact absurd hforall hp.nonempty
  | cons _ _ => rfl

include hp in
/-- **Undamaged, both GETs return the parts.** -/
theorem ServesMultipart.returns : BothReturn env bucket key (parts.map data).flatten p := by
  obtain ⟨hget, hstream⟩ := getObject_multipart hp.check hp.write hp.read hp.stat hp.isMultipart
  unfold BothReturn
  rw [hget, hstream, hp.object.decode hp.mds]
  exact ⟨⟨_, rfl⟩, ⟨_, rfl⟩⟩

include hp in
/-- The reads of a damaged object are its decoded parts. -/
theorem Damages.reads (h : Damages bucket key parts damaged p p') :
    (∀ data, BothReturn env bucket key data p' ↔
      readAndDecodeMultipart env p'.disks bucket key m = .ok data) ∧
    (BothFail env bucket key p' ↔ ∀ data, readAndDecodeMultipart env p'.disks bucket key m ≠ .ok data) := by
  have hstat : firstStat bucket key p' = some m := by
    rw [← hp.stat]
    unfold firstStat
    congr 1
    funext d
    exact congrArg Except.toOption (h.stat d)
  obtain ⟨hget, hstream⟩ := getObject_multipart (h.check.trans hp.check) h.write h.read hstat hp.isMultipart
  unfold BothReturn BothFail
  rw [hget, hstream]
  cases readAndDecodeMultipart env p'.disks bucket key m with
  | error e => simp [Except.map]
  | ok data => simp [Except.map]

section Rotted

variable (hp : ServesMultipart env bucket key parts absent m obj p)
  (hthere : ∀ u ∈ parts, Disjoint (damaged u) (absent u))
include hp

/-- The shards of a pool damaged by `f`, -/
theorem rotPool_shards (damaged : PartUpload → Finset (Fin n)) (f : PartUpload → Bytes → Bytes)
    (hu : u ∈ parts) : ShardsRead bucket key u.number
      (rotRows (partDisks n (partOrder bucket key env u)) (damaged u) (fun _ => f u) (u.rows env))
      (partDisks n (partOrder bucket key env u)) (absent u) (rotPool obj parts damaged f p).disks :=
  (hp.object.shards u hu).rot fun d => readPart_rotPool hp.dir hp.object.nodup hu d

include hthere

/-- which is damage when `f` changes every shard. -/
theorem rotPool_damages {f : PartUpload → Bytes → Bytes}
    (hf : ∀ u (data : Bytes), 0 < data.length → f u data ≠ data) :
    Damages bucket key parts damaged p (rotPool obj parts damaged f p) := by
  refine damages_rotPool hp.dir hp.object.nodup hp.write hp.read fun u hu d hd => ?_
  have hread := hp.object.shards u hu
  obtain ⟨i, hi⟩ := mem_iff_getElem?.mp (hread.all d)
  have hlt : i < (u.rows env).length := hread.length ▸ (List.getElem?_eq_some_iff.mp hi).1
  refine ⟨i, _, hread.kept i d hi (Finset.disjoint_left.mp (hthere u hu) hd), hf u _ ?_⟩
  rw [getD_eq_getElem _ _ hlt, length_of_mem_rows (getElem_mem hlt)]
  exact shardSize_pos _ _

/-- **Damage that keeps the lengths makes no read fail**, and what is decoded of a part is then unchanged
only if the damaged shards hold none of its bytes. -/
theorem Tolerates.of_flipped (h : Tolerates env bucket key parts damaged p) :
    (∀ u ∈ parts, (damaged u).card ≤ u.parityN) ∧ ∀ u ∈ parts, absent u = ∅ →
      ∀ i d, (partDisks n (partOrder bucket key env u))[i]? = some d → d ∈ damaged u → ¬ u.Holds i := by
  have hflip := rotPool_damages hp hthere fun _ _ hpos => flipBytes_ne hpos
  have hdecoded : ∀ u ∈ parts, ∃ data : Bytes, data.length = u.data.length ∧ ∀ part, Describes u part →
      decodePart env (rotPool obj parts damaged (fun _ => flipBytes) p).disks bucket key part = .ok data :=
    fun u hu => (rotPool_shards hp damaged (fun _ => flipBytes) hu).decode_length (hp.object.fits u hu)
      (hp.object.few u hu) (by simp) fun r hmem => length_of_mem_flipped hmem
  choose! data hlength hdata using hdecoded
  have hread : readAndDecodeMultipart env (rotPool obj parts damaged (fun _ => flipBytes) p).disks bucket key
      m = .ok (parts.map data).flatten := by
    refine readAndDecodeMultipart_eq_ok.mpr ⟨parts.map data, ?_, rfl⟩
    rw [map_map]
    exact map_decodePart hp.object.entries hdata
  obtain ⟨hreturn, hfail⟩ := hflip.reads hp
  obtain ⟨hok, herr⟩ := h _ hflip
  have hfew : ∀ u ∈ parts, (damaged u).card ≤ u.parityN := by
    intro u hu
    by_contra hmany
    exact hfail.mp (herr ⟨u, hu, Nat.not_le.mp hmany⟩) _ hread
  refine ⟨hfew, fun u hu habsent i d hi hd hholds => ?_⟩
  have hsame : parts.map data = parts.map PartUpload.data := by
    refine eq_iff_flatten_eq.mpr ⟨?_, ?_⟩
    · exact Except.ok.inj (hread.symm.trans ((hreturn _).mp (hok hfew)))
    · rw [map_map, map_map]
      exact map_congr_left hlength
  obtain ⟨part, -, hpart⟩ := exists_describes hp.object.entries hu
  have hfull := rotPool_shards hp damaged (fun _ => flipBytes) hu
  rw [habsent] at hfull
  have hjoin : ((rotRows (partDisks n (partOrder bucket key env u)) (damaged u) (fun _ => flipBytes)
      (u.rows env)).take u.dataN).flatten.take u.data.length = data u :=
    Except.ok.inj ((hfull.decode_full (by simp) hpart).symm.trans (hdata u hu part hpart))
  exact flatten_rotRows_ne (hp.object.fits u hu) hi hd hholds
    (hjoin.trans (map_inj_left.mp hsame u hu))

/-- **Damage that empties shards cannot be repaired where another shard is missing.** -/
theorem Tolerates.of_emptied (h : Tolerates env bucket key parts damaged p)
    (hfew : ∀ u ∈ parts, (damaged u).card ≤ u.parityN) (hu : u ∈ parts) (hdamaged : damaged u ≠ ∅) :
    absent u = ∅ := by
  by_contra habsent
  obtain ⟨d, hd⟩ := Finset.nonempty_iff_ne_empty.mpr hdamaged
  have hempty : Damages bucket key parts damaged p (rotPool obj parts damaged (fun _ _ => []) p) :=
    rotPool_damages hp hthere fun _ _ hpos heq => absurd (congrArg length heq) (Nat.ne_of_lt hpos)
  obtain ⟨bodies, hbodies, -⟩ :=
    readAndDecodeMultipart_eq_ok.mp (((hempty.reads hp).1 _).mp ((h _ hempty).1 hfew))
  obtain ⟨part, hmem, hpart⟩ := exists_describes hp.object.entries hu
  have hshards := rotPool_shards hp damaged (fun _ _ => []) hu
  obtain ⟨i, hi⟩ := mem_iff_getElem?.mp (hshards.all d)
  have hnil : (rotRows (partDisks n (partOrder bucket key env u)) (damaged u) (fun _ _ => [])
      (u.rows env))[i]? = some [] := by
    have hlt : i < (u.rows env).length :=
      (hp.object.shards u hu).length ▸ (List.getElem?_eq_some_iff.mp hi).1
    rw [rotRows_of_mem hi hd, getElem?_eq_getElem hlt]
    rfl
  have herror : decodePart env (rotPool obj parts damaged (fun _ _ => []) p).disks bucket key part =
      .error .readQuorum :=
    hshards.decode_emptied (hp.object.fits u hu) (hp.object.few u hu) (by simp)
      (Finset.nonempty_iff_ne_empty.mpr habsent) hi (Finset.disjoint_left.mp (hthere u hu) hd) hnil hpart
  obtain ⟨b, -, hb⟩ := mem_map.mp (hbodies ▸ mem_map_of_mem hmem)
  rw [herror] at hb
  cases hb

end Rotted

/-- A damaged part that is decoded as it was. -/
theorem Damages.decode (hdamage : Damages bucket key parts damaged p p')
    (hp : ServesMultipart env bucket key parts absent m obj p) (hu : u ∈ parts)
    (h : damaged u = ∅ ∨ absent u = ∅ ∧
      ∀ i d, (partDisks n (partOrder bucket key env u))[i]? = some d → d ∈ damaged u → ¬ u.Holds i)
    (hpart : Describes u part) : decodePart env p'.disks bucket key part = .ok u.data := by
  obtain ⟨f, hrows⟩ := hdamage.shards hu (hp.object.shards u hu)
  rcases h with hnone | ⟨habsent, hnot⟩
  · rw [rotRows_empty hnone] at hrows
    exact hrows.decode (hp.object.fits u hu) (hp.mds u hu) (hp.object.few u hu) hpart
  · rw [habsent] at hrows
    rw [hrows.decode_full (by simp) hpart]
    exact congrArg Except.ok (flatten_rotRows (hp.object.fits u hu) hnot)

/-- **What damage a multipart object tolerates.** Of each part, the damaged shards hold none of its bytes,
no shard is missing, and no more shards are damaged than there are parity shards; or none is damaged. -/
theorem tolerates_iff (hp : ServesMultipart env bucket key parts absent m obj p)
    (hthere : ∀ u ∈ parts, Disjoint (damaged u) (absent u)) :
    Tolerates env bucket key parts damaged p ↔
      ∀ u ∈ parts, damaged u = ∅ ∨ absent u = ∅ ∧ (damaged u).card ≤ u.parityN ∧
        ∀ i d, (partDisks n (partOrder bucket key env u))[i]? = some d → d ∈ damaged u → ¬ u.Holds i := by
  constructor
  · intro h u hu
    obtain ⟨hfew, hnot⟩ := h.of_flipped hp hthere
    by_cases hnone : damaged u = ∅
    · exact Or.inl hnone
    · have habsent := h.of_emptied hp hthere hfew hu hnone
      exact Or.inr ⟨habsent, hfew u hu, hnot u hu habsent⟩
  · intro h p' hdamage
    have hfew : ∀ u ∈ parts, (damaged u).card ≤ u.parityN := by
      intro u hu
      rcases h u hu with hnone | ⟨-, hcard, -⟩
      · rw [hnone]
        exact Nat.zero_le _
      · exact hcard
    refine ⟨fun _ => ((hdamage.reads hp).1 _).mpr ?_,
      fun ⟨u, hu, hlt⟩ => absurd (hfew u hu) (Nat.not_le.mpr hlt)⟩
    refine readAndDecodeMultipart_eq_ok.mpr ⟨parts.map data, ?_, rfl⟩
    rw [map_map]
    refine map_decodePart hp.object.entries fun u hu part hpart => hdamage.decode hp hu ?_ hpart
    exact (h u hu).imp_right fun h => ⟨h.1, h.2.2⟩

/-! ## One part on two disks -/

/-- The part `x` on two disks, completed. -/
def damageSample : Pool LocalVolume 2 where
  disks := (completeUpload "bkt" "k" sampleUpload.uploadId sampleEnv
    [(1, "9dd4e461268c8034f5c8564e155c67a6")] 9 sampleRun.disks).2
  writeCache := none
  readCache := none

theorem damageSample_serves : ∃ m, ServesMultipart sampleEnv "bkt" "k" [⟨1, 1, 1, utf8 "x"⟩]
    (fun _ => ∅) m ["bkt", "k"] damageSample := by
  obtain ⟨hopened, huploaded, hlisted, hcheck⟩ :
      readUpload "bkt" "k" sampleUpload.uploadId UploadRun.sampleStaged = .ok sampleUpload ∧
      (∀ r ∈ [((1 : Int), "9dd4e461268c8034f5c8564e155c67a6")], sampleRun.last r.1 ≠ none) ∧
      listed sampleRun.last [(1, "9dd4e461268c8034f5c8564e155c67a6")] = [⟨1, 1, 1, utf8 "x"⟩] ∧
      checkKey "bkt" "k" none damageSample = .ok () := by
    decide +kernel
  have hdir : multipartUploadDir "bkt" "k" sampleUpload.uploadId = .ok sampleUploadDir := by
    decide +kernel
  have hinv : UploadRun.Inv sampleEnv "bkt" "k" sampleUpload.uploadId
      sampleUploadDir ["bkt", "k"] sampleUpload sampleRun :=
    UploadRun.Inv.run hdir (by decide +kernel)
      ⟨UploadRun.sampleStaged_workable, hopened, fun _ _ h => by cases h⟩ UploadRun.sampleParts (by decide)
  obtain ⟨m, t, hrun, hstat, -, hobject⟩ := hinv.complete hdir (by decide +kernel) (by simp) huploaded 9
  refine hobject.serves (by decide +kernel) (cons_ne_nil _ _) hstat ?_ (congrArg Prod.snd hrun) hcheck rfl rfl
  intro u hu _
  obtain rfl : u = ⟨1, 1, 1, utf8 "x"⟩ := by simpa using hu
  exact replication_mds 1

/-- A damaged parity shard is tolerated. -/
theorem tolerates_sample : ∃ m, ServesMultipart sampleEnv "bkt" "k" [⟨1, 1, 1, utf8 "x"⟩]
    (fun _ => ∅) m ["bkt", "k"] damageSample ∧
      Tolerates sampleEnv "bkt" "k" [⟨1, 1, 1, utf8 "x"⟩] (fun _ => {1}) damageSample := by
  obtain ⟨m, hp⟩ := damageSample_serves
  refine ⟨m, hp, (tolerates_iff hp fun _ _ => Finset.disjoint_empty_right _).mpr fun u hu => Or.inr ⟨rfl, ?_⟩⟩
  obtain rfl : u = ⟨1, 1, 1, utf8 "x"⟩ := by simpa using hu
  refine ⟨by decide, fun i d hi hd hholds => ?_⟩
  obtain rfl : i = 0 := Nat.lt_one_iff.mp hholds.1
  have hfirst : (partDisks 2 (partOrder "bkt" "k" sampleEnv ⟨1, 1, 1, utf8 "x"⟩))[0]? = some 0 := by
    decide +kernel
  rw [hfirst, Option.some.injEq] at hi
  subst hi
  simp at hd

/-- **A damaged data shard is served.** One byte of `part.1` changed on one of two disks, with one parity
shard, and both GETs return the changed byte. -/
theorem damaged_part_served : Damages "bkt" "k" [⟨1, 1, 1, utf8 "x"⟩] (fun _ => {0}) damageSample
        (rotPool ["bkt", "k"] [⟨1, 1, 1, utf8 "x"⟩] (fun _ => {0}) (fun _ => flipBytes) damageSample) ∧
      ((getObject sampleEnv "bkt" "k" damageSample).1.map Prod.fst = .ok (utf8 "x")) ∧
      ((getObject sampleEnv "bkt" "k" (rotPool ["bkt", "k"] [⟨1, 1, 1, utf8 "x"⟩] (fun _ => {0})
        (fun _ => flipBytes) damageSample)).1.map Prod.fst = .ok (utf8 "y")) ∧
      (streamedObject sampleEnv "bkt" "k" (rotPool ["bkt", "k"] [⟨1, 1, 1, utf8 "x"⟩] (fun _ => {0})
        (fun _ => flipBytes) damageSample)).map Prod.snd = .ok (.ok (utf8 "y")) := by
  refine ⟨?_, by decide +kernel⟩
  refine damages_rotPool (by decide +kernel) (by simp) rfl rfl fun u hu d hd => ?_
  obtain rfl : u = ⟨1, 1, 1, utf8 "x"⟩ := by simpa using hu
  obtain rfl : d = 0 := by simpa using hd
  exact ⟨0, utf8 "x", by decide +kernel, by decide +kernel⟩

end Tolerance

end Damage

end Abixio
