import Abixio.Storage.Flush
import Abixio.Storage.HealthyPut
import Abixio.Storage.WalHealth
import Abixio.Storage.WriterMoves

/-!
# A key in front of the write cache

Histories of one key on a `VolumePool` with the write cache on (`src/storage/volume_pool.rs`): PUTs of any
size, flushes, GETs, HEADs and DELETEs, one after another, on disks that take every call, and the work
that the disks do between them.

* A PUT goes to the write cache, or past it to the disks: when it is large or of unknown size, when the
  cache is full, and when the peer refuses the replica. It does not look for an older entry of its key.
* Reads ask the write cache first, and a flush writes its entry over the disks.
* `get_object_stream` sends the data shards of a cached entry as they are, with their padding.
* `get_object` joins whole shards, which is right for objects of one block or with one data shard
  (`Joinable`).
* A disk that has work on the key left is written to or deleted from when that is done (`Settled`).

`KeyRun.coherent`: in a history in which no PUT goes past a cached entry of the key and every cached body
fills its data shards, all reads return the last acknowledged PUT, and after a flush the disks alone do.
`bypass_shows_old` is a PUT that goes past an entry.
-/

namespace Abixio

open List Option

/-! ## Histories -/

/-- The requests of a history, and the work of the disks between them. The body of a PUT is complete; its
size is announced if `sized`. -/
inductive KeyOp (n : Nat) where
  | put (opts : PutOptions) (createdAt : Nat) (sized peerOk : Bool) (chunks : List Bytes)
  | flush (now age : Nat)
  | get
  | stream
  | head
  | delete
  | work (steps : Fin n → List Nat)

/-- The request of a PUT. -/
def keyRequest (bucket key : String) (opts : PutOptions) (createdAt : Nat) (sized : Bool)
    (body : Bytes) : PutRequest :=
  ⟨bucket, key, none, opts, createdAt, if sized then some body.length else none⟩

/-- A pool, and what the last acknowledged PUT of the key stored, unless a DELETE came after it. -/
structure KeyRun (V : Type) (n : Nat) where
  pool : Pool V n
  last : Option (Bytes × ObjectInfo)

namespace KeyRun

section Steps

variable {V W : Type} [Backend V W] [Background V] {n : Nat} (env : Env) (cfg : PoolConfig n)
  (bucket key : String)

/-- One request. -/
def step (s : KeyRun V n) : KeyOp n → KeyRun V n
  | .put opts createdAt sized peerOk chunks =>
    let r := putObjectStream env cfg (keyRequest bucket key opts createdAt sized chunks.flatten) peerOk
      (chunks.map .ok) s.pool
    ⟨r.2, match r.1 with
      | .ok (info, _) => some (chunks.flatten, info)
      | .error _ => s.last⟩
  | .flush now age => ⟨(flushOlderThan cfg now age s.pool).2, s.last⟩
  | .get => ⟨(getObject env bucket key s.pool).2, s.last⟩
  | .stream => ⟨(getObjectStream env bucket key s.pool).2, s.last⟩
  | .head => s
  | .delete =>
    let r := deleteObject bucket key s.pool
    ⟨r.2, match r.1 with
      | .ok _ => none
      | .error _ => s.last⟩
  | .work steps => ⟨s.pool.afterWork steps, s.last⟩

/-- A history. -/
def run (ops : List (KeyOp n)) (s : KeyRun V n) : KeyRun V n := ops.foldl (step env cfg bucket key) s

/-- `get_object` can join the stored shards of the key. -/
def Joinable (p : Pool V n) : Prop :=
  cachedWrite bucket key p = none → ∀ m, firstStat bucket key p = some m →
    m.size ≤ streamBlockSize ∨ m.erasure.data = 1

/-- What a read of the last PUT returns. -/
def expected (last : Option (Bytes × ObjectInfo)) : Except StorageError (Bytes × ObjectInfo) :=
  last.elim (.error .objectNotFound) .ok

/-- **Every read returns the last PUT**, or that there is none. -/
structure Shows (last : Option (Bytes × ObjectInfo)) (p : Pool V n) : Prop where
  get : Joinable bucket key p → (getObject env bucket key p).1 = expected last
  stream : streamedObject env bucket key p = (expected last).map fun r => (r.2, .ok r.1)
  head : headObject bucket key p = (expected last).map Prod.snd

/-- The disks alone. -/
def dropCaches (p : Pool V n) : Pool V n := { p with writeCache := none, readCache := none }

/-- The disks have nothing of the key left to do. -/
def Settled (p : Pool V n) : Prop := ∀ d, Background.Settled bucket key (p.disks d)

/-- A request after which the property holds if it held before. A PUT goes past the write cache only when
it has no entry of the key, and fills its data shards if it goes in; the metadata of its shards is of kind
`F`. What writes to the disks finds them settled. -/
def Safe (F : ObjectMeta → Prop) (s : KeyRun V n) : KeyOp n → Prop
  | .put opts createdAt sized peerOk chunks =>
    let req := keyRequest bucket key opts createdAt sized chunks.flatten
    let entry := cachedEntry env cfg req peerOk chunks.flatten s.pool
    (entry = none → cachedWrite bucket key s.pool = none ∧ Settled bucket key s.pool) ∧
      (∀ e, entry = some e → e.dataShards.flatten = chunks.flatten) ∧
      ∀ g : Generation n, g.Stored env cfg.planner bucket key → g.req = req ∨ g.req = smallRequest req →
        g.body = chunks.flatten → g.Fits env F
  | .flush now age => drainedEntries cfg now age s.pool ≠ [] → Settled bucket key s.pool
  | .get => Joinable bucket key s.pool
  | .delete => Settled bucket key s.pool
  | _ => True

/-- A history of such requests. -/
def SafeRun (F : ObjectMeta → Prop) : List (KeyOp n) → KeyRun V n → Prop
  | [], _ => True
  | op :: ops, s => Safe env cfg bucket key F s op ∧ SafeRun F ops (step env cfg bucket key s op)

end Steps

/-! ## The invariant -/

section Invariant

variable {V W : Type} [Backend V W] {n : Nat} {env : Env} {cfg : PoolConfig (n + 1)}
  {bucket key : String} {P : V → Prop} {F : ObjectMeta → Prop} {p : Pool V (n + 1)} {old : Option (Generation (n + 1))}
  {g : Generation (n + 1)}

/-- What a stored PUT shows. -/
def shown (env : Env) (bucket key : String) (g : Generation (n + 1)) : Bytes × ObjectInfo :=
  (g.body, g.info env bucket key)

/-- The disks have one PUT, or nothing. -/
def DisksHave (env : Env) (cfg : PoolConfig (n + 1)) (bucket key : String) (disks : Disks V (n + 1)) :
    Option (Generation (n + 1)) → Prop
  | some g => AllHold env cfg bucket key g disks
  | none => ∀ d, Absent bucket key (disks d)

/-- **The invariant.** The write cache has no other key, and what it has of this one is the last PUT;
without an entry the last PUT is on the disks. The read cache has the last PUT or nothing. -/
structure Inv (env : Env) (cfg : PoolConfig (n + 1)) (bucket key : String) (P : V → Prop)
    (F : ObjectMeta → Prop) (s : KeyRun V (n + 1)) : Prop where
  healthy : ∀ d, P (s.pool.disks d)
  only : ∃ c, s.pool.writeCache = some c ∧ ∀ k e, c.lookup k.1 k.2 = some e → k = (bucket, key)
  disks : ∃ old, DisksHave env cfg bucket key s.pool.disks old ∧
    ((cachedWrite bucket key s.pool = none ∧ s.last = old.map (shown env bucket key)) ∨
      ∃ g : Generation (n + 1), g.Stored env cfg.planner bucket key ∧ smallRequest g.req = g.req ∧
        (g.rows.take g.dataN).flatten = g.body ∧ g.Fits env F ∧
        cachedWrite bucket key s.pool = some (g.entry env cfg) ∧
        s.last = some (shown env bucket key g))
  read : cachedRead bucket key s.pool = none ∨
    ∃ r, s.last = some r ∧ cachedRead bucket key s.pool = some ⟨r.1, r.2⟩

/-! ## What the invariant shows -/

variable (hcheck : checkKey bucket key none p = .ok ())

include hcheck in
/-- The reads of a cached PUT, whenever it was cached. -/
theorem shows_cached {t : Nat} (hg : g.Stored env cfg.planner bucket key)
    (hsmall : smallRequest g.req = g.req) (hfull : (g.rows.take g.dataN).flatten = g.body)
    (hw : cachedWrite bucket key p = some ((g.entry env cfg).arrived t)) :
    Shows env bucket key (some (shown env bucket key g)) p := by
  have hshards : ((g.entry env cfg).arrived t).dataShards = g.rows.take g.dataN := by
    exact hg.entry_dataShards (Nat.succ_pos n) hsmall
  have hinfo : ((g.entry env cfg).arrived t).info bucket key = g.info env bucket key := by
    rw [WriteCacheEntry.info_arrived]
    exact Generation.entry_info hsmall
  refine ⟨fun _ => ?_, ?_, ?_⟩
  · have hsize : ((g.entry env cfg).arrived t).originalSize = g.body.length := rfl
    rw [getObject_of_write env hcheck hw, hshards, hfull, hsize, take_length, hinfo]
    rfl
  · rw [streamedObject_eq, hcheck, hw]
    simp only [Except.bind, streamBytes_ok, hshards, hfull, hinfo]
    rfl
  · unfold headObject
    rw [hcheck, hw]
    simp only [bind, Except.bind, hinfo]
    rfl

include hcheck in
/-- The reads of a stored PUT. -/
theorem shows_stored (hall : AllHold env cfg bucket key g p.disks) (hw : cachedWrite bucket key p = none)
    (hr : cachedRead bucket key p = none ∨ cachedRead bucket key p = some ⟨g.body, g.info env bucket key⟩) :
    Shows env bucket key (some (shown env bucket key g)) p := by
  obtain ⟨hserves, i, hstat⟩ := hall.serves hcheck hw hr
  refine ⟨fun hjoin => hserves.get ?_, ?_, ?_⟩
  · have hlayout : (g.metaOf env i).erasure.data = g.dataN := congrArg Prod.fst (hall.stored.layout i)
    rw [← hlayout]
    exact hjoin hw _ hstat
  · obtain ⟨pieces, hrun, hflat⟩ := hserves.stream
    unfold streamedObject
    rw [hrun]
    simp only [Except.map, streamBytes_ok, hflat]
    rfl
  · unfold headObject
    rw [hcheck, hw, hstat]
    rfl

include hcheck in
/-- The reads of a key that is nowhere. -/
theorem shows_absent (habsent : ∀ d, Absent bucket key (p.disks d)) (hw : cachedWrite bucket key p = none)
    (hr : cachedRead bucket key p = none) : Shows env bucket key none p := by
  obtain ⟨hget, hstream, hhead⟩ : (getObject env bucket key p).1 = _ ∧ _ ∧ _ :=
    reads_absent hcheck hw hr habsent
  refine ⟨fun _ => hget, ?_, hhead⟩
  unfold streamedObject
  rw [hstream]
  rfl

variable (hdisks : DisksHave env cfg bucket key p.disks old) (hw : cachedWrite bucket key p = none)

include hdisks hw hcheck in
/-- The reads of what the disks have. -/
theorem shows_disks
    (hr : cachedRead bucket key p = none ∨ ∃ r, old.map (shown env bucket key) = some r ∧
      cachedRead bucket key p = some ⟨r.1, r.2⟩) :
    Shows env bucket key (old.map (shown env bucket key)) p := by
  cases old with
  | none =>
    refine shows_absent hcheck hdisks hw (hr.resolve_right ?_)
    rintro ⟨r, hr, -⟩
    cases hr
  | some g =>
    refine shows_stored hcheck hdisks hw (hr.imp_right ?_)
    rintro ⟨r, hr, hread⟩
    cases hr
    exact hread

theorem last_of_expected {last : Option (Bytes × ObjectInfo)} {r : Bytes × ObjectInfo}
    (h : expected last = .ok r) : last = some r := by
  cases last with
  | none => cases h
  | some r' => exact congrArg some (Except.ok.inj h)

variable [Background V] {s : KeyRun V (n + 1)} (hP : StaysHealthy bucket key P F) (ha : Accepted bucket key none)
  (h : Inv env cfg bucket key P F s)

include hP ha h in
/-- **The invariant shows the last PUT.** -/
theorem Inv.shows : Shows env bucket key s.last s.pool := by
  have hcheck := check_of_healthy hP ha h.healthy
  obtain ⟨old, hdisks, ⟨hw, hlast⟩ | ⟨g, hg, hsmall, hfull, hfits, hw, hlast⟩⟩ := h.disks
  · have hread := h.read
    rw [hlast] at hread ⊢
    exact shows_disks hcheck hdisks hw hread
  · rw [hlast]
    exact shows_cached (t := (g.entry env cfg).cachedAt) hcheck hg hsmall hfull hw

/-! ## One request -/

omit [Background V] in
theorem Inv.leaves {p' : Pool V (n + 1)} {returned : Bytes × ObjectInfo → Prop}
    (h : Inv env cfg bucket key P F s) (hl : ReadLeaves bucket key returned s.pool p')
    (hreturned : ∀ r, returned r → s.last = some r) : Inv env cfg bucket key P F ⟨p', s.last⟩ := by
  have hw : cachedWrite bucket key p' = cachedWrite bucket key s.pool := by
    unfold cachedWrite
    rw [hl.writes]
  refine ⟨?_, ?_, ?_, ?_⟩
  · simp only [hl.disks]
    exact h.healthy
  · simp only [hl.writes]
    exact h.only
  · simp only [hl.disks, hw]
    exact h.disks
  · rcases hl.entry with hsame | hnone | ⟨r, hr, hentry⟩
    · simp only [hsame]
      exact h.read
    · exact Or.inl hnone
    · exact Or.inr ⟨r, hreturned r hr, hentry⟩

omit [Background V] in
include hdisks hw in
/-- The quorum of a DELETE is at most the number of disks. -/
theorem delete_quorum :
    writeQuorum (objectEc bucket key p).1 (objectEc bucket key p).2 ≤ n + 1 := by
  have htotal : (objectEc bucket key p).1 + (objectEc bucket key p).2 = n + 1 := by
    unfold objectEc readEcFromMeta
    rw [hw]
    cases old with
    | none =>
      rw [firstStat_absent hdisks]
      exact bucketEc_total (Nat.succ_pos n) rfl
    | some g =>
      obtain ⟨i, hi⟩ := hdisks.stored.exists_index 0
      have hstat : firstStat bucket key p = some (g.metaOf env i) := by
        unfold firstStat
        rw [finRange_succ, findSome?_cons, (hdisks.disk i 0 hi).stat]
        rfl
      have hlayout := hdisks.stored.layout i
      rw [Prod.mk.injEq] at hlayout
      rw [hstat]
      change (g.metaOf env i).erasure.data + (g.metaOf env i).erasure.parity = n + 1
      rw [hlayout.1, hlayout.2]
      exact hdisks.stored.total
  exact writeQuorum_le.trans htotal.le

include hP in
/-- **A DELETE of something is acknowledged.** -/
theorem delete_failed (ha : Accepted bucket key none) (hp : ∀ d, P (p.disks d))
    (hq : Settled bucket key p) (hdisks : DisksHave env cfg bucket key p.disks old) {e : StorageError}
    (hfailed : (deleteObject bucket key p).1 = .error e) :
    cachedWrite bucket key p = none ∧ old = none := by
  obtain ⟨ec, hec, hrun⟩ := deleteObject_eq ha.bucket_ok ha.key_ok p
  have hquorum : writeQuorum ec.1 ec.2 ≤ n + 1 := by
    rw [hec]
    exact delete_quorum hdisks (afterDelete_caches bucket key p).1
  have hgone : (((List.finRange (n + 1)).map fun d =>
      (Backend.deleteObject bucket key (p.disks d)).1).filter fun r =>
        r = .ok () ∨ r = .error .objectNotFound).length = n + 1 := by
    rw [filter_eq_self.mpr, length_map, length_finRange]
    intro r hr
    obtain ⟨d, -, rfl⟩ := mem_map.mp hr
    rw [decide_eq_true_eq]
    exact (hP.delete (hp d) (hq d)).2.2.imp_right And.left
  rw [hrun] at hfailed
  unfold deleteOutcome at hfailed
  dsimp only at hfailed
  split_ifs at hfailed with hnothing hcached
  · -- no disk and no cache had it
    refine ⟨not_isSome_iff_eq_none.mp (by rw [hnothing.2]; exact Bool.false_ne_true), ?_⟩
    cases old with
    | none => rfl
    | some g =>
      obtain ⟨i, hi⟩ := hdisks.stored.exists_index 0
      have hstat := (hdisks.disk i 0 hi).stat
      rcases (hP.delete (hp 0) (hq 0)).2.2 with hok | ⟨-, habsent⟩
      · have hany := any_eq_false.mp hnothing.1 _ (mem_map_of_mem (mem_finRange 0))
        rw [hok] at hany
        exact absurd rfl hany
      · simp [habsent.stat] at hstat
  · omega

include hP ha h in
/-- After a failed DELETE there was nothing. -/
theorem delete_acked (hq : Settled bucket key s.pool) {e : StorageError}
    (hfailed : (deleteObject bucket key s.pool).1 = .error e) :
    s.last = none := by
  obtain ⟨old, hdisks, hold⟩ := h.disks
  obtain ⟨hw, rfl⟩ := delete_failed hP ha h.healthy hq hdisks hfailed
  rcases hold with ⟨-, hlast⟩ | ⟨g, -, -, -, -, hg, -⟩
  · exact hlast
  · simp [hw] at hg

include hP ha h in
theorem Inv.delete (hq : Settled bucket key s.pool) :
    Inv env cfg bucket key P F (step env cfg bucket key s .delete) := by
  obtain ⟨c, hc, honly⟩ := h.only
  obtain ⟨ec, -, hrun⟩ := deleteObject_eq ha.bucket_ok ha.key_ok s.pool
  have hpool : (deleteObject bucket key s.pool).2 = afterDelete bucket key s.pool := by rw [hrun]
  have hlast : (step env cfg bucket key s .delete).last = none := by
    unfold step
    dsimp only
    cases hr : (deleteObject bucket key s.pool).1 with
    | ok u => rfl
    | error e => exact delete_acked hP ha h hq hr
  obtain ⟨hw, hread⟩ := afterDelete_caches bucket key s.pool
  rw [← hpool] at hw hread
  refine ⟨fun d => ?_, ⟨c.remove bucket key, ?_, fun k e he => ?_⟩, ⟨none, fun d => ?_,
    Or.inl ⟨hw, hlast⟩⟩, Or.inl hread⟩
  · change P ((deleteObject bucket key s.pool).2.disks d)
    rw [hpool]
    exact (hP.delete (h.healthy d) (hq d)).1
  · change (deleteObject bucket key s.pool).2.writeCache = _
    rw [hpool, afterDelete, hc]
    rfl
  · by_contra hk
    rw [WriteCache.lookup_remove_of_ne hk] at he
    exact hk (honly k e he)
  · change Absent bucket key ((deleteObject bucket key s.pool).2.disks d)
    rw [hpool]
    exact (hP.delete (h.healthy d) (hq d)).2.1

/-- A drain of a cache with no other key takes the entry of the key, or nothing. -/
theorem drained_cases {c : WriteCache (n + 1)} (sel : WriteCacheEntry (n + 1) → Bool)
    (honly : ∀ k e, c.lookup k.1 k.2 = some e → k = (bucket, key)) :
    (∃ e, c.lookup bucket key = some e ∧ (c.drainWhere sel).1 = [((bucket, key), e)] ∧
        (c.drainWhere sel).2.lookup bucket key = none) ∨
      (c.drainWhere sel).1 = [] ∧ (c.drainWhere sel).2.lookup bucket key = c.lookup bucket key := by
  have hkey : ∀ x ∈ (c.drainWhere sel).1, x.1 = (bucket, key) ∧
      c.lookup bucket key = some x.2 ∧ sel x.2 = true := by
    rintro ⟨k, e⟩ hx
    obtain ⟨he, hsel⟩ := WriteCache.mem_drainWhere.mp hx
    obtain rfl := honly k e he
    exact ⟨rfl, he, hsel⟩
  have hafter : (c.drainWhere sel).2.lookup bucket key = (c.lookup bucket key).filter fun e => !sel e :=
    WriteCache.lookup_drainWhere (bucket, key)
  cases hdrained : (c.drainWhere sel).1 with
  | nil =>
    refine Or.inr ⟨rfl, hafter.trans ?_⟩
    cases he : c.lookup bucket key with
    | none => rfl
    | some e =>
      rw [filter_some]
      cases hsel : sel e with
      | false => rfl
      | true =>
        have hmem : ((bucket, key), e) ∈ (c.drainWhere sel).1 := WriteCache.mem_drainWhere.mpr ⟨he, hsel⟩
        rw [hdrained] at hmem
        cases hmem
  | cons x rest =>
    have hnodup : ((c.drainWhere sel).1.map Prod.fst).Nodup := WriteCache.drainWhere_nodup
    rw [hdrained] at hkey hnodup
    obtain ⟨hx, he, hsel⟩ := hkey x mem_cons_self
    refine Or.inl ⟨x.2, he, ?_, ?_⟩
    · -- a second entry would be of the key too
      cases rest with
      | nil => rw [← hx]
      | cons y rest =>
        have hy := (hkey y (.tail _ mem_cons_self)).1
        rw [map_cons, map_cons, nodup_cons, hx, hy] at hnodup
        exact absurd mem_cons_self hnodup.1
    · rw [hafter, he, filter_some, hsel]
      rfl

section

include hP

include ha h in
theorem Inv.put (opts : PutOptions) (createdAt : Nat) (sized peerOk : Bool) (chunks : List Bytes)
    (hsafe : Safe env cfg bucket key F s (.put opts createdAt sized peerOk chunks)) :
    Inv env cfg bucket key P F (step env cfg bucket key s (.put opts createdAt sized peerOk chunks)) := by
  obtain ⟨c₀, hc₀, honly⟩ := h.only
  obtain ⟨old, hdisks, hold⟩ := h.disks
  have houtcome : PutOutcome env cfg (keyRequest bucket key opts createdAt sized chunks.flatten) peerOk
      chunks.flatten P s.pool (putObjectStream env cfg
        (keyRequest bucket key opts createdAt sized chunks.flatten) peerOk (chunks.map .ok) s.pool) := by
    refine putObjectStream_healthy hP h.healthy (Nat.succ_pos n) (fun hnone => (hsafe.1 hnone).2)
      hsafe.2.2 rfl (check_of_healthy hP ha h.healthy) fun len hlen => ?_
    cases sized with
    | true => exact (Option.some.inj hlen).symm
    | false => cases hlen
  unfold step
  dsimp only
  revert houtcome
  generalize putObjectStream env cfg (keyRequest bucket key opts createdAt sized chunks.flatten) peerOk
    (chunks.map .ok) s.pool = r
  intro houtcome
  cases houtcome with
  | failed e hnone =>
    refine ⟨h.healthy, ⟨c₀, hc₀, honly⟩, ⟨old, hdisks, hold⟩, Or.inl ?_⟩
    exact cachedRead_invalidated bucket key s.pool
  | cached g c c' rc hg hbody hsmall hreq hentry hc hins hread =>
    have hfull := hsafe.2.1 _ hentry
    rw [hg.entry_dataShards (Nat.succ_pos n) hsmall] at hfull
    have hcached : c'.lookup bucket key = some (g.entry env cfg) := WriteCache.lookup_inserted hins
    refine ⟨h.healthy, ⟨c', rfl, fun k e he => ?_⟩, ⟨old, hdisks, Or.inr ⟨g, hg, hsmall,
      hfull.trans hbody.symm, hsafe.2.2 g hg (Or.inr hreq) hbody, hcached, ?_⟩⟩, ?_⟩
    · by_contra hk
      refine hk (honly k e ?_)
      rw [hc₀, Option.some.injEq] at hc
      rw [hc, ← WriteCache.lookup_inserted_of_ne hins hk]
      exact he
    · rw [← hbody]
      rfl
    · exact hread.imp_right fun hr => ⟨_, rfl, hr⟩
  | stored g t rc hg hbody hnone hPt hread =>
    refine ⟨hPt, ⟨c₀, hc₀, honly⟩, ⟨some g, hg, Or.inl ⟨(hsafe.1 hnone).1, ?_⟩⟩, ?_⟩
    · rw [← hbody]
      rfl
    · exact hread.imp_right fun hr => ⟨_, rfl, hr⟩

include h in
theorem Inv.flush (now age : Nat) (hsafe : Safe env cfg bucket key F s (.flush now age)) :
    Inv env cfg bucket key P F (step env cfg bucket key s (.flush now age)) := by
  obtain ⟨c, hc, honly⟩ := h.only
  obtain ⟨old, hdisks, hold⟩ := h.disks
  have hcached : cachedWrite bucket key s.pool = c.lookup bucket key := by
    unfold cachedWrite
    rw [hc]
    rfl
  unfold step
  dsimp only
  rw [flushOlderThan_eq, midFlush, take_length]
  simp only [drainPool, drainedEntries, hc, map_some, getD_some, WriteCache.drainPrimaryOlderThan]
  set sel : WriteCacheEntry (n + 1) → Bool := fun e => age ≤ now - e.cachedAt &&
    (e.primaryNodeId.isEmpty || e.primaryNodeId = cfg.localNodeId)
  have honly' : ∀ k e, (c.drainWhere sel).2.lookup k.1 k.2 = some e → k = (bucket, key) := by
    intro k e he
    rw [WriteCache.lookup_drainWhere, filter_eq_some_iff] at he
    exact honly k e he.1
  rcases drained_cases sel honly with ⟨e, he, hdrained, hgone⟩ | ⟨hdrained, hsame⟩
  · -- the entry goes to the disks
    rcases hold with ⟨hw, -⟩ | ⟨g, hg, hsmall, hfull, hfits, hw, hlast⟩
    · simp [hcached, he] at hw
    obtain rfl : e = g.entry env cfg := by
      rw [hcached, he] at hw
      exact Option.some.inj hw
    have hq : Settled bucket key s.pool := by
      refine hsafe ?_
      unfold drainedEntries WriteCache.drainPrimaryOlderThan
      rw [hc, map_some, getD_some, hdrained]
      exact cons_ne_nil _ _
    obtain ⟨results, t, hrun, -, -, hPt, hall⟩ :=
      writeShards_healthy hP h.healthy hq hg hsmall hfits
    have hwrites : (Lib.Act.each flushWrite
        ([((bucket, key), g.entry env cfg)].flatMap entryWrites) s.pool.disks).2 = t := by
      rw [flatMap_singleton, flushEntry_eq, hrun]
    rw [hdrained, hwrites]
    exact ⟨hPt, ⟨_, rfl, honly'⟩, ⟨some g, hall, Or.inl ⟨hgone, hlast⟩⟩, h.read⟩
  · rw [hdrained]
    refine ⟨h.healthy, ⟨_, rfl, honly'⟩, ⟨old, hdisks, ?_⟩, h.read⟩
    rw [hcached, ← hsame] at hold
    exact hold

include h in
/-- The work of the disks changes nothing a read looks at. -/
theorem Inv.work (steps : Fin (n + 1) → List Nat) :
    Inv env cfg bucket key P F (step env cfg bucket key s (.work steps)) := by
  have hwork : ∀ d, P (afterWork (steps d) (s.pool.disks d)) ∧
      SameShard bucket key (s.pool.disks d) (afterWork (steps d) (s.pool.disks d)) :=
    fun d => hP.afterWork (steps d) (h.healthy d)
  obtain ⟨old, hdisks, hold⟩ := h.disks
  refine ⟨fun d => (hwork d).1, h.only, ⟨old, ?_, hold⟩, h.read⟩
  cases old with
  | none =>
    intro d
    have hsame := (hwork d).2
    exact ⟨hsame.stat.trans (hdisks d).stat, hsame.read.trans (hdisks d).read,
      hsame.mmap.trans (hdisks d).mmap⟩
  | some g => exact ⟨hdisks.stored, fun i d hi => (hdisks.disk i d hi).congr (hwork d).2⟩

include ha h in
/-- **One request keeps the invariant.** -/
theorem Inv.step (op : KeyOp (n + 1)) (hsafe : Safe env cfg bucket key F s op) :
    Inv env cfg bucket key P F (step env cfg bucket key s op) := by
  have hshows := h.shows hP ha
  cases op with
  | put opts createdAt sized peerOk chunks => exact h.put hP ha opts createdAt sized peerOk chunks hsafe
  | flush now age => exact h.flush hP now age hsafe
  | get =>
    refine h.leaves (getObject_leaves s.pool) fun r hr => ?_
    rw [hshows.get hsafe] at hr
    exact last_of_expected hr
  | stream =>
    refine h.leaves (getObjectStream_leaves s.pool) fun r hr => ?_
    rw [hshows.stream] at hr
    refine last_of_expected ?_
    cases hlast : expected s.last with
    | error e =>
      rw [hlast] at hr
      cases hr
    | ok r' =>
      rw [hlast] at hr
      obtain ⟨hinfo, hbody⟩ := Prod.mk.inj (Except.ok.inj hr)
      exact congrArg _ (Prod.ext (Except.ok.inj hbody) hinfo)
  | head => exact h
  | delete => exact h.delete hP ha hsafe
  | work steps => exact h.work hP steps

include ha h in
/-- **A history keeps the invariant.** -/
theorem Inv.run (ops : List (KeyOp (n + 1))) (hsafe : SafeRun env cfg bucket key F ops s) :
    Inv env cfg bucket key P F (run env cfg bucket key ops s) := by
  induction ops generalizing s with
  | nil => exact h
  | cons op ops ih => exact ih (h.step hP ha op hsafe.1) hsafe.2

/-! ## A whole history -/

end

omit [Background V] in
/-- A flush of everything leaves no entry of the key. -/
theorem flushed_none (h : Inv env cfg bucket key P F s) (now : Nat) :
    cachedWrite bucket key (flushWriteCache cfg now s.pool).2 = none := by
  obtain ⟨c, hc, -⟩ := h.only
  have hafter : cachedWrite bucket key (flushWriteCache cfg now s.pool).2 =
      (c.drainPrimaryOlderThan cfg.localNodeId now 0).2.lookup bucket key := by
    unfold flushWriteCache
    rw [flushOlderThan_eq, midFlush, drainPool, hc]
    rfl
  rw [hafter, WriteCache.drainPrimaryOlderThan]
  refine (WriteCache.lookup_drainWhere (bucket, key)).trans ?_
  have hw : cachedWrite bucket key s.pool = c.lookup bucket key := by
    unfold cachedWrite
    rw [hc]
    rfl
  obtain ⟨old, -, ⟨hnone, -⟩ | ⟨g, -, -, -, -, hg, -⟩⟩ := h.disks
  · rw [← hw, hnone]
    rfl
  · have hprimary : (g.entry env cfg).primaryNodeId = cfg.localNodeId := rfl
    rw [← hw, hg, filter_some, hprimary, decide_eq_true (Nat.zero_le _), decide_eq_true rfl,
      Bool.or_true]
    rfl

/-- **The write cache and the disks are coherent.** From an empty cache, in a history of safe requests:
every read returns the last acknowledged PUT, and after a flush of everything that finds the disks settled
they alone do, whatever work is left to them. -/
theorem coherent (hP : StaysHealthy bucket key P F) (ha : Accepted bucket key none)
    {p : Pool V (n + 1)} (hhealthy : ∀ d, P (p.disks d)) (habsent : ∀ d, Absent bucket key (p.disks d))
    {c : WriteCache (n + 1)} (hc : p.writeCache = some c) (hempty : c.entries = ∅)
    (hread : cachedRead bucket key p = none) (ops : List (KeyOp (n + 1)))
    (hsafe : SafeRun env cfg bucket key F ops ⟨p, none⟩) (now : Nat) :
    let s := run env cfg bucket key ops ⟨p, none⟩
    Shows env bucket key s.last s.pool ∧ (Safe env cfg bucket key F s (.flush now 0) → ∀ steps,
      Shows env bucket key s.last (dropCaches ((flushWriteCache cfg now s.pool).2.afterWork steps))) := by
  have hlookup : ∀ k : CacheKey, c.lookup k.1 k.2 = none := by
    intro k
    unfold WriteCache.lookup
    rw [hempty]
    exact AList.lookup_empty k
  have hinit : Inv env cfg bucket key P F ⟨p, none⟩ := by
    refine ⟨hhealthy, ⟨c, hc, fun k e he => ?_⟩, ⟨none, habsent, Or.inl ⟨?_, rfl⟩⟩, Or.inl hread⟩
    · simp [hlookup] at he
    · unfold cachedWrite
      rw [hc]
      exact hlookup (bucket, key)
  have hinv := hinit.run hP ha ops hsafe
  refine ⟨hinv.shows hP ha, fun hflush steps => ?_⟩
  -- one more flush empties the cache of the key, and the disks have the rest
  have hflushed := (hinv.flush hP now 0 hflush).work hP steps
  have hnone := flushed_none hinv now
  obtain ⟨old, hdisks, ⟨-, hlast⟩ | ⟨g, -, -, -, -, hw, -⟩⟩ := hflushed.disks
  · have hcheck := check_of_healthy (p := dropCaches ((flushWriteCache cfg now
      (run env cfg bucket key ops ⟨p, none⟩).pool).2.afterWork steps)) hP ha hflushed.healthy
    change Shows env bucket key (run env cfg bucket key ops ⟨p, none⟩).last _
    rw [show (run env cfg bucket key ops ⟨p, none⟩).last = _ from hlast]
    exact shows_disks hcheck hdisks rfl (Or.inl rfl)
  · have hcached : cachedWrite bucket key (step env cfg bucket key (step env cfg bucket key
        (run env cfg bucket key ops ⟨p, none⟩) (.flush now 0)) (.work steps)).pool = none := hnone
    simp [hcached] at hw

end Invariant

/-! ## One disk with a log -/

/-- A PUT of one byte. -/
def byteRequest : PutRequest := { sampleRequest with createdAt := 1, contentLength := some 1 }

/-- A log that reads back the metadata of `x` on one disk. -/
def byteLog : NeedleEnv := { plainNeedleEnv with
  fromSlice := fun _ => .ok (shardMeta sampleEnv byteRequest
    (⟨1, "local-set", 1, 0, [⟨0, 0, "local", "v0"⟩]⟩ : PlacementRecord 1) 0 0 (utf8 "x") (utf8 "x")) }

/-- An empty disk with a log, behind a write cache of the default size. -/
def loggedPool : Pool (WalVolume byteLog) 1 where
  disks _ := ⟨sampleVolume "v0", some { emptyLog with threshold := 64 }⟩
  writeCache := some (.new (256 * 1024 * 1024))
  readCache := none

theorem fits_byteLog {g : Generation 1} (hg : g.Stored sampleEnv oneConfig.planner "bkt" "k")
    (hreq : g.req = byteRequest) (hbody : g.body = utf8 "x") : g.Fits sampleEnv (Recorded byteLog 0) := by
  intro i hi
  obtain rfl : i = 0 := by omega
  have htotal := hg.total
  have hpos := hg.data_pos
  have hd : g.dataN = 1 := by omega
  have hp : g.parityN = 0 := by omega
  have hplan := hg.plan
  rw [hd, hp, show oneConfig.planner.plan sampleEnv "bkt" "k" 1 0 =
    .ok ⟨1, "local-set", 1, 0, [⟨0, 0, "local", "v0"⟩]⟩ by decide +kernel, Except.ok.injEq] at hplan
  refine ⟨Nat.le_refl 0, congrArg Except.ok ?_⟩
  unfold Generation.metaOf
  rw [hreq, ← hplan, hp, hg.rows_single hd hp, hbody]
  rfl

/-- A PUT of `x` that is cached, its flush to the log and the work on it: the disk alone shows the PUT. -/
theorem coherent_logged :
    let ops : List (KeyOp 1) := [.put byteRequest.opts 1 true true [utf8 "x"], .flush 1 0, .work fun _ => [0]]
    let s := run sampleEnv oneConfig "bkt" "k" ops ⟨loggedPool, none⟩
    streamedObject sampleEnv "bkt" "k" (dropCaches (flushWriteCache oneConfig 1 s.pool).2) =
      .ok (putInfo sampleEnv byteRequest (utf8 "x"), .ok (utf8 "x")) := by
  intro ops s
  obtain ⟨hcached, hfull, hdrained, hlast⟩ :
      cachedEntry sampleEnv oneConfig byteRequest true (utf8 "x") loggedPool ≠ none ∧
        (cachedEntry sampleEnv oneConfig byteRequest true (utf8 "x") loggedPool).all
          (fun e => e.dataShards.flatten = utf8 "x") = true ∧
        drainedEntries oneConfig 1 0 s.pool = [] ∧
        s.last = some (utf8 "x", putInfo sampleEnv byteRequest (utf8 "x")) := by
    decide +kernel
  have hsettled : ∀ d, Background.Settled "bkt" "k" (loggedPool.disks d) := by
    rintro d t ⟨⟩
    exact ⟨rfl, nofun⟩
  have hsafe : SafeRun sampleEnv oneConfig "bkt" "k" (Recorded byteLog 0) ops ⟨loggedPool, none⟩ := by
    refine ⟨⟨fun h => absurd h hcached, fun e he => ?_, fun g hg hreq hbody => ?_⟩, fun _ => hsettled,
      trivial, trivial⟩
    · rw [Option.all_eq_true] at hfull
      exact of_decide_eq_true (hfull e he)
    · exact fits_byteLog hg (hreq.elim id id) (hbody.trans (append_nil _))
  have hready : ∀ d, (loggedPool.disks d).Ready "bkt" "k" 0 := by
    refine fun d => ⟨sampleVolume_ready _, rfl, ?_⟩
    rintro t ⟨⟩
    exact ⟨⟨by decide, by decide⟩, Or.inl ⟨rfl, fun k => rfl⟩⟩
  have habsent : ∀ d, Absent "bkt" "k" (loggedPool.disks d) := fun d =>
    WalVolume.Erased.absent ⟨hsettled d, ["bkt", "k"], by decide, rfl⟩
  have hshows := (coherent (WalVolume.healthy accepted_sample (Nat.zero_le _)) accepted_sample hready habsent
    rfl rfl rfl ops hsafe 1).2 (fun h => absurd hdrained h) fun _ => []
  have hstream := hshows.stream
  rw [show (run sampleEnv oneConfig "bkt" "k" ops ⟨loggedPool, none⟩).last = _ from hlast] at hstream
  exact hstream

/-! ## Three disks -/

/-- Three empty disks behind a write cache of the default size. -/
def bufferedPool : Pool LocalVolume 3 where
  disks d := sampleVolume (if d = 0 then "v0" else if d = 1 then "v1" else "v2")
  writeCache := some (.new (256 * 1024 * 1024))
  readCache := none

/-- A PUT of `x`, as it is read. -/
def bufferedLast : Bytes × ObjectInfo := (utf8 "x", putInfo sampleEnv (threeRequest 1) (utf8 "x"))

/-- **A PUT past the cache is hidden, and then lost.** `x` is cached and `y` streamed to the disks. Reads
return `x`, and the flush stores `x` again. -/
theorem bypass_shows_old :
    let s := run sampleEnv threeConfig "bkt" "k"
      [.put (threeRequest 1).opts 1 true true [utf8 "x"],
        .put (threeRequest 2).opts 2 false true [utf8 "y"]] ⟨bufferedPool, none⟩
    s.last.map Prod.fst = some (utf8 "y") ∧
      (getObject sampleEnv "bkt" "k" s.pool).1 = .ok bufferedLast ∧
      headObject "bkt" "k" s.pool = .ok bufferedLast.2 ∧
      (getObject sampleEnv "bkt" "k" (dropCaches (flushWriteCache threeConfig 2 s.pool).2)).1 =
        .ok bufferedLast := by
  decide +kernel

end KeyRun

end Abixio
