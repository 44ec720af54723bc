import Abixio.Storage.VolumePool

/-!
# Listing a pool

Model of `VolumePool::list_objects` (`src/storage/volume_pool.rs:1039-1103`).

* The keys are those of the first disk that answers, and with a write cache also the cached ones,
  sorted. Every key is then looked up with `head_object`, and a key without an answer is left out.
* String positions are byte positions, as in the source. A slice that would cut a character, or
  that is out of range, panics: `none`.
* `start_after` and `continuation_token` are accepted and not read.
-/

namespace Abixio

/-- `ListOptions`. -/
structure ListOptions where
  keyPrefix : String
  delimiter : String
  startAfter : String
  maxKeys : Nat
  continuationToken : String

/-- `ListResult`. -/
structure ListResult where
  objects : List ObjectInfo
  commonPrefixes : List String
  isTruncated : Bool
  nextContinuationToken : String
  deriving DecidableEq

/-- A text cut at a byte position. -/
def cutAtByte : Nat → List Char → Option (List Char × List Char)
  | 0, cs => some ([], cs)
  | _ + 1, [] => none
  | pos + 1, c :: cs =>
    if c.utf8Size ≤ pos + 1 then
      (cutAtByte (pos + 1 - c.utf8Size) cs).map fun r => (c :: r.1, r.2)
    else none

/-- `str::find`. -/
def findText (pat : List Char) : List Char → Option Nat
  | [] => if pat = [] then some 0 else none
  | c :: cs =>
    if pat.isPrefixOf (c :: cs) then some 0
    else (findText pat cs).map fun pos => pos + c.utf8Size

section Listing

variable {V W : Type} [Backend V W] {n : Nat}

/-- The keys to list: those of the disks, and those in the write cache. -/
def listedKeys (bucket keyPrefix : String) (p : Pool V n) : List String :=
  let keys := firstKeys bucket keyPrefix p
  match p.writeCache with
  | none => keys
  | some c =>
    ((c.listKeys bucket keyPrefix).foldl (fun keys k => if k ∈ keys then keys else keys ++ [k])
      keys).insertionSort (· ≤ ·)

/-- A key listed as an object, if `head_object` finds it. -/
def listObject (bucket key : String) (p : Pool V n) (acc : List ObjectInfo × List String) :
    List ObjectInfo × List String :=
  match headObject bucket key p with
  | .ok info => (acc.1 ++ [info], acc.2)
  | .error _ => acc

/-- One turn of the listing loops. -/
def listKey (bucket : String) (opts : ListOptions) (p : Pool V n)
    (acc : List ObjectInfo × List String) (key : String) :
    Option (List ObjectInfo × List String) :=
  if opts.delimiter.isEmpty then some (listObject bucket key p acc)
  else do
    let (_, rest) ← cutAtByte opts.keyPrefix.utf8ByteSize key.toList
    match findText opts.delimiter.toList rest with
    | none => some (listObject bucket key p acc)
    | some pos =>
      -- `&after_prefix[..=pos]`
      let (group, _) ← cutAtByte (pos + 1) rest
      let cp := opts.keyPrefix ++ String.ofList group
      some (if cp ∈ acc.2 then acc else (acc.1, acc.2 ++ [cp]))

/-- `list_objects`; `none` when it panics. -/
def listObjects (bucket : String) (opts : ListOptions) (p : Pool V n) :
    Option (Except StorageError ListResult) :=
  let checked : Except StorageError Unit := do
    validateBucketName bucket
    validateObjectPrefix opts.keyPrefix
    if ← headBucket bucket p then .ok () else .error .bucketNotFound
  match checked with
  | .error e => some (.error e)
  | .ok () => do
    let (objects, commonPrefixes) ←
      (listedKeys bucket opts.keyPrefix p).foldlM (listKey bucket opts p) ([], [])
    let maxKeys := if opts.maxKeys = 0 then 1000 else opts.maxKeys
    some (.ok ⟨objects, commonPrefixes, maxKeys < objects.length + commonPrefixes.length, ""⟩)

variable {bucket : String} {opts : ListOptions} {p : Pool V n} {result : ListResult}

theorem headObject_key {key : String} {info : ObjectInfo} (h : headObject bucket key p = .ok info) :
    info.key = key := by
  obtain ⟨_, -, h⟩ := Lib.except_bind_eq_ok.mp h
  split at h
  · cases h
    rfl
  · split at h
    · cases h
      rfl
    · cases h

/-- What `head_object` finds: the infos the listing collects. -/
def Headed (bucket : String) (p : Pool V n) (infos : List ObjectInfo) : Prop :=
  ∀ info ∈ infos, headObject bucket info.key p = .ok info

theorem listObject_headed {key : String} {acc : List ObjectInfo × List String}
    (h : Headed bucket p acc.1) : Headed bucket p (listObject bucket key p acc).1 := by
  unfold listObject
  split
  · rename_i info hinfo
    intro other hother
    rcases List.mem_append.mp hother with hother | hother
    · exact h other hother
    · rw [List.mem_singleton.mp hother, headObject_key hinfo]
      exact hinfo
  · exact h

theorem listKey_headed {key : String} {acc acc' : List ObjectInfo × List String}
    (h : Headed bucket p acc.1) (hk : listKey bucket opts p acc key = some acc') :
    Headed bucket p acc'.1 := by
  unfold listKey at hk
  split_ifs at hk
  · cases hk
    exact listObject_headed h
  · obtain ⟨⟨_, rest⟩, -, hk⟩ := Option.bind_eq_some_iff.mp hk
    simp only at hk
    split at hk
    · cases hk
      exact listObject_headed h
    · obtain ⟨⟨group, _⟩, -, hk⟩ := Option.bind_eq_some_iff.mp hk
      cases hk
      split_ifs
      · exact h
      · exact h

/-- **A listing lists only what `head_object` finds.** -/
theorem listObjects_headed (h : listObjects bucket opts p = some (.ok result)) :
    Headed bucket p result.objects := by
  have hrun : ∀ (keys : List String) (acc acc' : List ObjectInfo × List String),
      Headed bucket p acc.1 → keys.foldlM (listKey bucket opts p) acc = some acc' →
        Headed bucket p acc'.1 := by
    intro keys
    induction keys with
    | nil =>
      intro acc acc' hacc hfold
      cases hfold
      exact hacc
    | cons key keys ih =>
      intro acc acc' hacc hfold
      obtain ⟨acc₁, hkey, hfold⟩ := Option.bind_eq_some_iff.mp hfold
      exact ih acc₁ acc' (listKey_headed hacc hkey) hfold
  unfold listObjects at h
  simp only at h
  split at h
  · cases h
  · obtain ⟨⟨objects, groups⟩, hfold, h⟩ := Option.bind_eq_some_iff.mp h
    cases h
    exact hrun _ _ _ (by intro info hinfo; cases hinfo) hfold

end Listing

end Abixio
