import Abixio.Storage.Generations
import Abixio.Storage.HealthyDisks

/-!
# PUTs on healthy disks

What `put_object_stream` (`src/storage/volume_pool.rs:388-646`) does to a pool whose disks take every
write. It fails before it stores anything, leaves an entry in the write cache, or stores a shard on
every disk (`PutOutcome`); `putObjectStream_healthy` says that there is no other outcome.

`cachedEntry` computes from the request and the pool whether the write cache takes the PUT: it is small,
the peer took its replica, and the cache has room.
-/

namespace Abixio

open Lib List Act FileTree Option

variable {dataN parityN : Nat}

section HealthyPut

variable {V W : Type} [Backend V W] {n : Nat}

/-- The metadata of a PUT's shards is of kind `F`. -/
def Generation.Fits (env : Env) (F : ObjectMeta → Prop) (g : Generation n) : Prop :=
  ∀ i < n, F (g.metaOf env i)

/-- The entry that a PUT leaves in the write cache, if the cache takes it. -/
def cachedEntry (env : Env) (cfg : PoolConfig n) (req : PutRequest) (peerOk : Bool) (body : Bytes)
    (p : Pool V n) : Option (WriteCacheEntry n) :=
  if isSmall req && peerOk then do
    let (dataN, parityN) ← (resolveEc req.bucket req.opts p).toOption
    let shards ← (smallShards env dataN parityN body).toOption
    let record ← (cfg.planner.plan env req.bucket req.key dataN parityN).toOption
    let c ← p.writeCache
    let entry := smallEntry env cfg req record parityN body shards
    let _ ← c.inserted req.bucket req.key entry
    some entry
  else none

/-- **Every disk holds its shard of a PUT.** -/
structure AllHold (env : Env) (cfg : PoolConfig n) (bucket key : String) (g : Generation n)
    (disks : Disks V n) : Prop where
  stored : g.Stored env cfg.planner bucket key
  disk : ∀ (i : Nat) d, (cfg.planner.distribution env bucket key n)[i]? = some d →
    DiskHolds env bucket key g i (disks d)

variable {g : Generation n}

theorem DiskHolds.congr {env : Env} {bucket key : String} {i : Nat} {v v' : V}
    (h : DiskHolds env bucket key g i v) (hsame : SameShard bucket key v v') :
    DiskHolds env bucket key g i v' := by
  obtain ⟨m, hmmap, hm⟩ := h.mmap
  exact ⟨hsame.read.trans h.read, hsame.stat.trans h.stat, m, hsame.mmap.trans hmmap, hm⟩

/-- What the read cache has for a key after a PUT of `body`: nothing, or the PUT. -/
def ReadsPut (bucket key : String) (body : Bytes) (info : ObjectInfo) (p : Pool V n) : Prop :=
  cachedRead bucket key p = none ∨ cachedRead bucket key p = some ⟨body, info⟩

variable {env : Env} {cfg : PoolConfig n} {bucket key : String} {P : V → Prop} {F : ObjectMeta → Prop}
  {p : Pool V n} {req : PutRequest} {peerOk : Bool} {chunks : List Bytes} {record : PlacementRecord n}
  {s : Disks V n}

/-- The read cache warmed with a PUT. -/
theorem readsPut_warmed (body : Bytes) (info : ObjectInfo) (h : cachedRead bucket key p = none) :
    ReadsPut bucket key body info (onReadCache (fun c => c.put bucket key ⟨body, info⟩) p) := by
  unfold ReadsPut
  unfold cachedRead onReadCache at *
  cases hc : p.readCache with
  | none => exact Or.inl rfl
  | some c =>
    rw [hc] at h
    rcases @ReadCache.lookup_put bucket key c ⟨body, info⟩ with hput | hput | hput
    · exact Or.inr hput
    · exact Or.inl hput
    · refine Or.inl ?_
      simp only [map_some, bind_some, hput]
      exact h

variable [Background V] (hP : StaysHealthy req.bucket req.key P F)

include hP in
theorem StaysHealthy.takesAll {v : V} (hvid : req.versionId = none) (hv : P v)
    (hq : Background.Settled req.bucket req.key v) :
    TakesAll (fun m => m.Plain ∧ m.versionId = "" ∧ F m) req v := by
  intro chunks
  obtain ⟨w, v₁, hw, hfin⟩ := hP.stream hv hq chunks
  rw [hvid]
  refine ⟨w, v₁, hw, fun m ⟨hm, hid, hF⟩ => ?_⟩
  obtain ⟨v₂, hrun, -⟩ := hfin m hm hid hF
  exact ⟨v₂, hrun⟩

include hP in
/-- **The streaming path on healthy disks** stores the PUT on all of them. -/
theorem encodeAndWrite_healthy (hvid : req.versionId = none) (hs : ∀ d, P (s d))
    (hq : ∀ d, Background.Settled req.bucket req.key (s d))
    (hplan : cfg.planner.plan env req.bucket req.key dataN parityN = .ok record)
    (hlayout : parityN = 0 ∨ RsAccepts dataN parityN) (hn : dataN + parityN = n)
    (hF : (streamedGeneration env req dataN parityN record chunks.flatten).Fits env F) :
    ∃ t, encodeAndWrite env cfg.planner dataN parityN req (chunks.map .ok) s =
        (.ok (putInfo env req chunks.flatten, []), t) ∧ (∀ d, P (t d)) ∧
      AllHold env cfg req.bucket req.key
        (streamedGeneration env req dataN parityN record chunks.flatten) t := by
  have hplain : ∀ i < n, (shardMeta env req record parityN i chunks.flatten
      ((encodeObject env dataN parityN chunks.flatten).getD i [])).Plain ∧
      (shardMeta env req record parityN i chunks.flatten
        ((encodeObject env dataN parityN chunks.flatten).getD i [])).versionId = "" ∧ _ :=
    fun i hi => ⟨⟨rfl, rfl, rfl, rfl⟩, by simp [shardMeta, hvid], hF i hi⟩
  obtain ⟨info, t, hrun⟩ : ∃ info t, encodeAndWrite env cfg.planner dataN parityN req
      (chunks.map .ok) s = (.ok (info, []), t) :=
    encodeAndWrite_total hplan hlayout (fun d => hP.takesAll hvid (hs d) (hq d))
      fun i hi => hplain i (hn ▸ hi)
  obtain ⟨record', body, results, hput⟩ := encodeAndWrite_ok hrun
  obtain ⟨chunks', hmap, hbody⟩ := hput.stream_ok
  obtain rfl := map_ok_inj hmap
  subst hbody
  obtain rfl : record = record' := Except.ok.inj (hplan.symm.trans hput.plan)
  have hsound := PoolPlanner.plan_ok hplan
  -- the disks that got a shard are all disks
  have hdisk : ∀ (i : Nat) d, record.distribution[i]? = some d →
      P (t d) ∧ DiskHolds env req.bucket req.key
        (streamedGeneration env req dataN parityN record chunks.flatten) i (t d) := by
    intro i d hi
    rw [getElem?_map, map_eq_some_iff] at hi
    obtain ⟨shard, hshard, rfl⟩ := hi
    have hlt : i < results.length := by
      rw [hput.results_length, ← hsound.length]
      exact (List.getElem?_eq_some_iff.mp hshard).1
    have hr := getElem?_eq_getElem hlt
    obtain ⟨pieces, w, v, hflat, hw, hfin⟩ := hput.written i shard _ hshard hr
    obtain ⟨w', v', hw', hfin'⟩ := hP.stream (hs shard.backendIndex) (hq shard.backendIndex) pieces
    rw [hvid] at hw
    obtain ⟨rfl, rfl⟩ := hw.unique hw'
    have hi : i < n := by rwa [hput.results_length, hn] at hlt
    obtain ⟨hm, hid, hFi⟩ := hplain i hi
    obtain ⟨v₂, hrun₂, hv₂, hstores⟩ := hfin' _ hm hid hFi
    rw [hfin, Prod.mk.injEq] at hrun₂
    obtain ⟨-, rfl⟩ := hrun₂
    rw [hflat] at hstores
    exact ⟨hv₂, hstores.read, hstores.stat, hstores.mmap⟩
  refine ⟨t, by rw [hrun, hput.info_eq], fun d => ?_, ⟨hplan, hn, Or.inl rfl⟩, fun i d hi => ?_⟩
  · obtain ⟨i, hi⟩ := mem_iff_getElem?.mp (mem_distribution hplan hn d)
    exact (hdisk i d hi).1
  · have hdist := PlacementPlanner.plan_distribution hplan
    rw [hn] at hdist
    rw [← hdist] at hi
    exact (hdisk i d hi).2

/-- The write cache entry of a PUT of the small-object path. -/
def Generation.entry (env : Env) (cfg : PoolConfig n) (g : Generation n) : WriteCacheEntry n :=
  smallEntry env cfg g.req g.record g.parityN g.body g.rows

variable (hg : g.Stored env cfg.planner bucket key)

include hg in
/-- The data shards of the entry, -/
theorem Generation.Stored.entry_dataShards (hn : 0 < n) (hsmall : smallRequest g.req = g.req) :
    (g.entry env cfg).dataShards = g.rows.take g.dataN := by
  have hlen := hg.rows_length
  have hhead : (g.entry env cfg).metas.head? = some (g.metaOf env 0) := by
    change (smallMetas env g.req g.record g.parityN g.body g.rows).head? = _
    rw [smallMetas, head?_mapIdx, head?_eq_getElem?, getElem?_eq_getElem (by omega),
      hsmall, map_some, Generation.metaOf, getD_eq_getElem _ _ (by omega)]
  have hlayout : (g.metaOf env 0).erasure.data = g.dataN := congrArg Prod.fst (hg.layout 0)
  unfold WriteCacheEntry.dataShards
  rw [hhead, map_some, getD_some, hlayout]
  rfl

/-- and what a read of it reports. -/
theorem Generation.entry_info (hsmall : smallRequest g.req = g.req) :
    (g.entry env cfg).info bucket key = g.info env bucket key := by
  have hvid : g.req.versionId = none := by
    rw [← hsmall]
    rfl
  have hetag : etagOf env (smallRequest g.req).opts g.body = etagOf env g.req.opts g.body := by
    rw [hsmall]
  unfold WriteCacheEntry.info Generation.entry smallEntry Generation.info Generation.metaOf
    ObjectMeta.toInfo shardMeta
  simp only [hetag, hvid, getD_none]

include hg in
/-- The shards of the entry, each with its disk and its metadata. -/
theorem Generation.Stored.entry_getElem (hsmall : smallRequest g.req = g.req) {i : Nat} {d : Fin n}
    (hi : (cfg.planner.distribution env bucket key n)[i]? = some d) :
    (g.entry env cfg).distribution[i]? = some d ∧ g.rows[i]? = some (g.rows.getD i []) ∧
      (g.entry env cfg).metas[i]? = some (g.metaOf env i) := by
  have hlt : i < g.rows.length := by
    rw [hg.rows_length, ← hg.distribution_length]
    exact (List.getElem?_eq_some_iff.mp hi).1
  have hrow : g.rows[i]? = some (g.rows.getD i []) := by
    rw [getD_eq_getElem _ _ hlt]
    exact getElem?_eq_getElem hlt
  refine ⟨(congrArg (·[i]?) hg.distribution).trans hi, hrow, ?_⟩
  change (smallMetas env g.req g.record g.parityN g.body g.rows)[i]? = _
  rw [smallMetas, getElem?_mapIdx, hrow, hsmall]
  rfl

include hg in
theorem Generation.Stored.entry_lengths :
    (g.entry env cfg).distribution.length = n ∧ (g.entry env cfg).shards.length = n ∧
      (g.entry env cfg).metas.length = n := by
  refine ⟨(congrArg length hg.distribution).trans hg.distribution_length, hg.rows_length, ?_⟩
  change (smallMetas env g.req g.record g.parityN g.body g.rows).length = n
  rw [smallMetas, length_mapIdx, hg.rows_length]

include hg in
theorem Generation.Stored.entry_nodup : (g.entry env cfg).distribution.Nodup := by
  change g.record.distribution.Nodup
  rw [hg.distribution]
  exact hg.distribution_nodup

/-- **The shards of a small object on healthy disks** are stored on all of them. -/
theorem writeShards_healthy (hP : StaysHealthy bucket key P F) (hs : ∀ d, P (s d))
    (hq : ∀ d, Background.Settled bucket key (s d)) (hg : g.Stored env cfg.planner bucket key)
    (hsmall : smallRequest g.req = g.req) (hF : g.Fits env F) :
    ∃ results t, writeShards bucket key (g.entry env cfg) s = (.ok results, t) ∧
      results.length = n ∧ (∀ r ∈ results, r = .ok ()) ∧ (∀ d, P (t d)) ∧
      AllHold env cfg bucket key g t := by
  have hnodup : (g.entry env cfg).distribution.Nodup := hg.entry_nodup
  obtain ⟨hlen, hrows, hmetas⟩ : (g.entry env cfg).distribution.length = n ∧ _ ∧ _ := hg.entry_lengths
  obtain ⟨results, t, hrun⟩ := writeShards_total bucket key (g.entry env cfg) s
  obtain ⟨hrlen, hwritten, -⟩ := writeShards_spec hnodup (hrows.trans hlen.symm)
    (hmetas.trans hlen.symm) hrun
  have hdisk : ∀ (i : Nat) d, (cfg.planner.distribution env bucket key n)[i]? = some d →
      results[i]? = some (.ok ()) ∧ P (t d) ∧ DiskHolds env bucket key g i (t d) := by
    intro i d hi
    obtain ⟨hdist, hrow, hmeta⟩ := hg.entry_getElem hsmall hi
    obtain ⟨r, hr, hcall⟩ := hwritten i d _ _ hdist hrow hmeta
    have hvid : g.req.versionId = none := by rw [← hsmall]; rfl
    have hi' : i < n := by
      rw [← hg.distribution_length]
      exact (List.getElem?_eq_some_iff.mp hi).1
    obtain ⟨v, hv, hPv, hstores⟩ := hP.small (hs d) (hq d) (g.rows.getD i []) (g.metaOf env i)
      ⟨rfl, rfl, rfl, rfl⟩ (by simp [Generation.metaOf, shardMeta, hvid]) (hF i hi')
    rw [hv, Prod.mk.injEq] at hcall
    obtain ⟨rfl, rfl⟩ := hcall
    exact ⟨hr, hPv, hstores.read, hstores.stat, hstores.mmap⟩
  rw [hlen] at hrlen
  refine ⟨results, t, hrun, hrlen, fun r hr => ?_, fun d => ?_, hg, fun i d hi => (hdisk i d hi).2.2⟩
  · obtain ⟨i, hi, rfl⟩ := mem_iff_getElem.mp hr
    have hd : i < (cfg.planner.distribution env bucket key n).length := by
      rw [hg.distribution_length, ← hrlen]
      exact hi
    have hok := (hdisk i _ (getElem?_eq_getElem hd)).1
    rw [getElem?_eq_getElem hi] at hok
    exact Option.some.inj hok
  · obtain ⟨i, hi⟩ := hg.exists_index d
    exact (hdisk i d hi).2.1

/-- **The outcomes of a PUT on healthy disks.** -/
inductive PutOutcome (env : Env) (cfg : PoolConfig n) (req : PutRequest) (peerOk : Bool)
    (body : Bytes) (P : V → Prop) (p : Pool V n) :
    Except StorageError (ObjectInfo × List MrfEntry) × Pool V n → Prop
  /-- Nothing is stored. -/
  | failed (e : StorageError) (hnone : cachedEntry env cfg req peerOk body p = none) :
      PutOutcome env cfg req peerOk body P p
        (.error e, onReadCache (fun c => c.invalidate req.bucket req.key) p)
  /-- The write cache has it. -/
  | cached (g : Generation n) (c c' : WriteCache n) (rc : Option ReadCache)
      (hg : g.Stored env cfg.planner req.bucket req.key) (hbody : g.body = body)
      (hsmall : smallRequest g.req = g.req) (hreq : g.req = smallRequest req)
      (hentry : cachedEntry env cfg req peerOk body p = some (g.entry env cfg))
      (hc : p.writeCache = some c) (hins : c.inserted req.bucket req.key (g.entry env cfg) = some c')
      (hread : ReadsPut req.bucket req.key body (g.info env req.bucket req.key)
        { p with writeCache := some c', readCache := rc }) :
      PutOutcome env cfg req peerOk body P p
        (.ok (g.info env req.bucket req.key, []), { p with writeCache := some c', readCache := rc })
  /-- Every disk has it. -/
  | stored (g : Generation n) (t : Disks V n) (rc : Option ReadCache)
      (hg : AllHold env cfg req.bucket req.key g t) (hbody : g.body = body)
      (hnone : cachedEntry env cfg req peerOk body p = none) (hP : ∀ d, P (t d))
      (hread : ReadsPut req.bucket req.key body (g.info env req.bucket req.key)
        { p with disks := t, readCache := rc }) :
      PutOutcome env cfg req peerOk body P p
        (.ok (g.info env req.bucket req.key, []), { p with disks := t, readCache := rc })

variable (hsmall : isSmall req = true) (hec : resolveEc req.bucket req.opts p = .ok (dataN, parityN))
  (hplan : cfg.planner.plan env req.bucket req.key dataN parityN = .ok record)

omit [Background V] in
include hsmall hec hplan in
/-- A small PUT with a layout and a plan is cached when the write cache takes its entry. -/
theorem cachedEntry_small (peerOk : Bool) {body : Bytes} {rows : List Bytes}
    (hshards : smallShards env dataN parityN body = .ok rows) :
    cachedEntry env cfg req peerOk body p =
      (p.writeCache.bind fun c => if peerOk then c.inserted req.bucket req.key
        (smallEntry env cfg req record parityN body rows) else none).map fun _ =>
          smallEntry env cfg req record parityN body rows := by
  unfold cachedEntry
  rw [hsmall, hec]
  cases peerOk with
  | false => cases p.writeCache <;> rfl
  | true =>
    simp only [Except.toOption, hshards, hplan, bind_eq_bind, bind_some, Bool.and_self, if_true]
    cases p.writeCache with
    | none => rfl
    | some c =>
      rw [bind_some, bind_some]
      cases c.inserted req.bucket req.key (smallEntry env cfg req record parityN body rows) <;> rfl

/-- The body of a small PUT is small if it has the announced length. -/
theorem small_length (hsmall : isSmall req = true)
    (hlength : ∀ len, req.contentLength = some len → len = chunks.flatten.length) :
    chunks.flatten.length ≤ logThreshold := by
  unfold isSmall at hsmall
  rw [Bool.and_eq_true, Option.any_eq_true] at hsmall
  obtain ⟨len, hlen, hle⟩ := hsmall.2
  rw [← hlength len hlen]
  exact of_decide_eq_true hle

variable (hp : ∀ d, P (p.disks d)) (hn : 0 < n) (hsize : chunks.flatten.length ≤ logThreshold)
  (hq : cachedEntry env cfg req peerOk chunks.flatten p = none →
    ∀ d, Background.Settled req.bucket req.key (p.disks d))
  (hF : ∀ g : Generation n, g.Stored env cfg.planner req.bucket req.key →
    g.req = req ∨ g.req = smallRequest req → g.body = chunks.flatten → g.Fits env F)

include hP hsmall hec hplan hp hn hsize hq hF in
/-- **A small PUT with a layout and a plan is acknowledged**: it is cached or stored on every disk. -/
theorem putSmall_offered {rows : List Bytes}
    (hshards : smallShards env dataN parityN chunks.flatten = .ok rows) : ∃ q, (do
      let info ← putSmall env cfg req peerOk (chunks.map .ok)
      pure (info, []) : PoolOp V n (ObjectInfo × List MrfEntry))
        (forgetRead req.bucket req.key p) =
        (.ok ((smallGeneration req dataN parityN record chunks.flatten rows).info env req.bucket req.key,
          []), q) ∧ PutOutcome env cfg req peerOk chunks.flatten P p
        (.ok ((smallGeneration req dataN parityN record chunks.flatten rows).info env req.bucket req.key,
          []), q) := by
  set p₀ := forgetRead req.bucket req.key p with hp₀
  have hread₀ : cachedRead req.bucket req.key p₀ = none := cachedRead_invalidated _ _ p
  set g := smallGeneration req dataN parityN record chunks.flatten rows with hgen
  have hg : g.Stored env cfg.planner req.bucket req.key :=
    ⟨hplan, resolveEc_total hn hec, Or.inr ⟨hsize, hshards⟩⟩
  set p₁ := onReadCache (fun c => c.put req.bucket req.key
    ⟨chunks.flatten, putInfo env (smallRequest req) chunks.flatten⟩) p₀ with hp₁
  have hread₁ : ReadsPut req.bucket req.key chunks.flatten (g.info env req.bucket req.key) p₁ :=
    readsPut_warmed _ _ hread₀
  have hentry := cachedEntry_small hsmall hec hplan peerOk hshards
  set entry := smallEntry env cfg req record parityN chunks.flatten rows with hent
  have hrun := putSmall_prepared (p := p₀) peerOk (collectBody_chunks chunks) hec hshards hplan
  rw [show p₀.writeCache = p.writeCache from rfl, ← hp₁, ← hent] at hrun
  dsimp only at hrun
  rw [Act.bind_apply]
  cases hoffer : p.writeCache.bind fun c =>
      if peerOk then c.inserted req.bucket req.key entry else none with
  | some c' =>
    -- the write cache takes it
    rw [hoffer] at hentry hrun
    obtain ⟨c, hc, hins⟩ := bind_eq_some_iff.mp hoffer
    rw [Option.ite_none_right_eq_some] at hins
    rw [hrun]
    exact ⟨_, rfl, .cached g c c' p₁.readCache hg rfl rfl rfl hentry hc hins.2 hread₁⟩
  | none =>
    rw [hoffer] at hentry hrun
    obtain ⟨results, t, hstored, hrlen, hok, hPt, hall⟩ :=
      writeShards_healthy hP hp (hq hentry) hg rfl (hF g hg (Or.inr rfl) rfl)
    have hquorum : ¬ (results.filter Except.isOk).length < writeQuorum dataN parityN := by
      have htotal : dataN + parityN = n := hg.total
      rw [filter_eq_self.mpr fun r hr => by rw [hok r hr]; rfl, hrlen]
      unfold writeQuorum
      split_ifs <;> omega
    have hwrites : onDisks (writeShards req.bucket req.key entry) p₁ =
      (.ok results, { p₁ with disks := t }) := onDisks_eq hstored
    rw [hrun]
    unfold writeSmall
    rw [bind_ok hwrites, if_neg hquorum]
    exact ⟨_, rfl, .stored g t p₁.readCache hall rfl hentry hPt hread₁⟩

include hP hsmall hp hn hsize hq hF in
theorem putSmall_healthy :
    PutOutcome env cfg req peerOk chunks.flatten P p ((do
      let info ← putSmall env cfg req peerOk (chunks.map .ok)
      pure (info, []) : PoolOp V n _)
        (forgetRead req.bucket req.key p)) := by
  set p₀ := forgetRead req.bucket req.key p with hp₀
  have hec₀ : resolveEc req.bucket req.opts p₀ = resolveEc req.bucket req.opts p := rfl
  cases hec : resolveEc req.bucket req.opts p with
  | error e =>
    unfold putSmall
    simp only [Act.bind_apply, Act.ofExcept_apply, collectBody_chunks, Act.query_apply, hec₀, hec]
    exact .failed e (by simp [cachedEntry, hec, Except.toOption])
  | ok ec =>
    obtain ⟨dataN, parityN⟩ := ec
    cases hshards : smallShards env dataN parityN chunks.flatten with
    | error e =>
      unfold putSmall
      simp only [Act.bind_apply, Act.ofExcept_apply, collectBody_chunks, Act.query_apply, hec₀,
        hec, hshards]
      exact .failed e (by simp [cachedEntry, hec, hshards, Except.toOption])
    | ok rows =>
      cases hplan : cfg.planner.plan env req.bucket req.key dataN parityN with
      | error e =>
        unfold putSmall
        simp only [Act.bind_apply, Act.ofExcept_apply, collectBody_chunks, Act.query_apply,
          hec₀, hec, hshards, hplan]
        exact .failed _ (by simp [cachedEntry, hec, hshards, hplan, Except.toOption])
      | ok record =>
        obtain ⟨q, hrun, houtcome⟩ := putSmall_offered hP hsmall hec hplan hp hn hsize hq hF hshards
        rw [hrun]
        exact houtcome

omit [Background V] in
/-- `encode_and_write` fails before it touches a disk when there is no plan or no code. -/
theorem encodeAndWrite_refused {body : Body}
    (h : ∀ record, cfg.planner.plan env req.bucket req.key dataN parityN = .ok record →
      ¬ (parityN = 0 ∨ RsAccepts dataN parityN)) :
    ∃ e, encodeAndWrite env cfg.planner dataN parityN req body s = (.error e, s) := by
  unfold encodeAndWrite
  cases hplan : cfg.planner.plan env req.bucket req.key dataN parityN with
  | error e => exact ⟨_, rfl⟩
  | ok record =>
    have hno := h record hplan
    rw [not_or] at hno
    simp only [Except.mapError, Act.ok_bind]
    rw [if_neg fun hone => hno.1 hone.2]
    unfold encodeStriped rsFor
    rw [if_pos (Nat.pos_of_ne_zero hno.1)]
    cases hnew : rsNew dataN parityN with
    | ok u => exact absurd hnew hno.2
    | error e => exact ⟨_, rfl⟩

include hP hp hn hq hF in
theorem putLarge_healthy (hvid : req.versionId = none) (hlarge : isSmall req = false) :
    PutOutcome env cfg req peerOk chunks.flatten P p (putLarge env cfg req (chunks.map .ok)
      (forgetRead req.bucket req.key p)) := by
  set p₀ := forgetRead req.bucket req.key p with hp₀
  have hnone : cachedEntry env cfg req peerOk chunks.flatten p = none := by
    unfold cachedEntry
    rw [hlarge]
    rfl
  have hec₀ : resolveEc req.bucket req.opts p₀ = resolveEc req.bucket req.opts p := rfl
  unfold putLarge
  simp only [Act.bind_apply, Act.query_apply, hec₀]
  cases hec : resolveEc req.bucket req.opts p with
  | error e => exact .failed e hnone
  | ok ec =>
    obtain ⟨dataN, parityN⟩ := ec
    simp only [onDisks]
    by_cases hcan : ∃ record, cfg.planner.plan env req.bucket req.key dataN parityN = .ok record ∧
        (parityN = 0 ∨ RsAccepts dataN parityN)
    · obtain ⟨record, hplan, hlayout⟩ := hcan
      obtain ⟨t, hrun, hPt, hall⟩ : ∃ t, encodeAndWrite env cfg.planner dataN parityN req
          (chunks.map .ok) p₀.disks = (.ok (putInfo env req chunks.flatten, []), t) ∧
          (∀ d, P (t d)) ∧ AllHold env cfg req.bucket req.key
            (streamedGeneration env req dataN parityN record chunks.flatten) t := by
        have htotal := resolveEc_total hn hec
        exact encodeAndWrite_healthy hP hvid hp (hq hnone) hplan hlayout htotal
          (hF _ ⟨hplan, htotal, Or.inl rfl⟩ (Or.inl rfl) rfl)
      rw [hrun]
      exact .stored _ t p₀.readCache hall rfl hnone hPt (Or.inl (cachedRead_invalidated _ _ p))
    · obtain ⟨e, hrun⟩ : ∃ e, encodeAndWrite env cfg.planner dataN parityN req (chunks.map .ok)
          p₀.disks = (.error e, p₀.disks) :=
        encodeAndWrite_refused fun record hplan hlayout => hcan ⟨record, hplan, hlayout⟩
      rw [hrun]
      exact .failed e hnone

include hP hp hn hq hF in
/-- **A PUT on healthy disks** fails before it stores anything, is cached, or is stored on every
disk. -/
theorem putObjectStream_healthy (hvid : req.versionId = none)
    (hcheck : checkKey req.bucket req.key none p = .ok ())
    (hlength : ∀ len, req.contentLength = some len → len = chunks.flatten.length) :
    PutOutcome env cfg req peerOk chunks.flatten P p
      (putObjectStream env cfg req peerOk (chunks.map .ok) p) := by
  rw [putObjectStream_checked peerOk (hvid ▸ hcheck)]
  cases hsmall : isSmall req with
  | true => exact putSmall_healthy hP hsmall hp hn (small_length hsmall hlength) hq hF
  | false => exact putLarge_healthy hP hp hn hq hF hvid hsmall

/-- A bucket that every disk has. -/
theorem check_of_healthy (hP : StaysHealthy bucket key P F) (ha : Accepted bucket key none)
    {m : Nat} {p : Pool V (m + 1)} (hp : ∀ d, P (p.disks d)) : checkKey bucket key none p = .ok () := by
  have hcount : 1 ≤ ((finRange (m + 1)).filter fun d =>
      Backend.bucketExists bucket (p.disks d)).length := by
    refine length_pos_of_mem (a := 0) (mem_filter.mpr ⟨mem_finRange 0, ?_⟩)
    exact hP.hasBucket (hp 0)
  unfold checkKey headBucket
  simp only [ha.bucket_ok, ha.key_ok, bind, Except.bind, decide_eq_true hcount]
  rfl

omit [Background V] in
/-- **A PUT that every disk holds is what reads return**, unless a cache has another one. -/
theorem AllHold.serves {m : Nat} {cfg : PoolConfig (m + 1)} {g : Generation (m + 1)}
    {p : Pool V (m + 1)} (hall : AllHold env cfg bucket key g p.disks)
    (hcheck : checkKey bucket key none p = .ok ()) (hw : cachedWrite bucket key p = none)
    (hr : ReadsPut bucket key g.body (g.info env bucket key) p) :
    Serves env bucket key g p ∧ ∃ i, firstStat bucket key p = some (g.metaOf env i) := by
  obtain ⟨rc, hot, hread, hrc, hhot, hcase⟩ : ∃ (rc : Option (Generation (m + 1))) (hot : Option Bool),
      cachedRead bucket key p = rc.map (fun g => ⟨g.body, g.info env bucket key⟩) ∧
        rc.isSome = hot.isSome ∧ (hot = some true → rc = some g) ∧ (hot = some true ∨ hot = none) := by
    rcases hr with hr | hr
    · exact ⟨none, none, hr, rfl, fun h => (by cases h), Or.inr rfl⟩
    · exact ⟨some g, some true, hr, rfl, fun _ => rfl, Or.inl rfl⟩
  have hpool : PoolHolds env cfg bucket key (fun _ => g) none rc p :=
    ⟨hcheck, fun _ => hall.stored, hall.disk, hw, hread⟩
  have hover : Overwritten env cfg bucket key g.dataN g.parityN Finset.univ false hot g p :=
    ⟨⟨rfl, rfl⟩, hall.stored, fun _ => g, none, rc, hpool, fun _ _ => rfl, rfl, hrc, hhot⟩
  have hfresh : ReadsFresh env cfg bucket key g.dataN Finset.univ false hot :=
    ⟨rfl, hcase.imp_right fun h => ⟨h, Finset.mem_univ _, fun _ _ _ _ => Finset.mem_univ _⟩⟩
  exact ⟨hfresh.serves hover, firstStat_mixed hpool⟩

end HealthyPut

/-- An empty volume is ready for a PUT. -/
theorem sampleVolume_ready (id : String) : (sampleVolume id).Ready "bkt" "k" := by
  refine ⟨rfl, fun q _ => ?_, rfl, rfl⟩
  by_cases hbkt : q = ["bkt"]
  · rw [hbkt]
    rfl
  · have hlookup : (sampleVolume id).fs.lookup q =
        (FileTree.empty : FileTree FileData).lookup q := lookup_set_of_ne _ _ hbkt
    rw [read_eq_of_lookup hlookup]
    cases q <;> rfl

theorem accepted_sample : Accepted "bkt" "k" none :=
  ⟨by decide, by decide, fun id hid => by cases hid⟩

end Abixio
