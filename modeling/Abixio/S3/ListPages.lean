import Abixio.Storage.WriterMoves
import Abixio.Storage.ListObjects

/-!
# Listing in pages

Model of `list_objects_v2` (`src/s3_service.rs:759-813`) over `VolumePool::list_objects`. A client that
wants at most `max_keys` entries at a time repeats its request with the token of the page before.

* `list_objects` compares the number of entries with `max_keys` and returns all of them. Its token is
  empty and the handler does not send it.
* The handler reads neither `start_after` nor the token.

`paged_exact_iff`: the pages are right if there is only one, and all entries come after `start_after`.
`second_page_missing` is a listing of two objects in pages of one.
-/

namespace Abixio

open List

/-- `ListObjectsV2Input`; `max_keys` is an `i32`. -/
structure ListObjectsV2Input where
  bucket : String
  keyPrefix : Option String := none
  delimiter : Option String := none
  maxKeys : Option Int := none
  startAfter : Option String := none
  continuationToken : Option String := none

/-- `ListObjectsV2Output`. -/
structure ListObjectsV2Output where
  contents : List ObjectInfo
  commonPrefixes : Option (List String)
  delimiter : Option String
  isTruncated : Bool
  keyCount : Int
  maxKeys : Int
  name : String
  keyPrefix : Option String
  nextContinuationToken : Option String

/-- `i as usize`. -/
def asUsize (i : Int) : Nat := if 0 ≤ i then i.toNat else 2 ^ 64 - (-i).toNat

/-- The options of a request. -/
def ListObjectsV2Input.options (input : ListObjectsV2Input) : ListOptions where
  keyPrefix := input.keyPrefix.getD ""
  delimiter := input.delimiter.getD ""
  startAfter := ""
  maxKeys := asUsize (input.maxKeys.getD 1000)
  continuationToken := ""

/-- The answer to a request. -/
def listOutput (input : ListObjectsV2Input) (result : ListResult) : ListObjectsV2Output where
  contents := result.objects
  commonPrefixes := if result.commonPrefixes.isEmpty then none else some result.commonPrefixes
  delimiter := input.delimiter
  isTruncated := result.isTruncated
  keyCount := Int.bmod (result.objects.length + result.commonPrefixes.length) (2 ^ 32)
  maxKeys := input.maxKeys.getD 1000
  name := input.bucket
  keyPrefix := input.keyPrefix
  nextContinuationToken := none

/-- The common prefixes of an answer. -/
def ListObjectsV2Output.groups (out : ListObjectsV2Output) : List String := out.commonPrefixes.getD []

/-- The answers to a client that follows the tokens of a request to the end. -/
inductive Pages (reply : ListObjectsV2Input → Option (Except StorageError ListObjectsV2Output)) :
    ListObjectsV2Input → List ListObjectsV2Output → Prop where
  | last {input : ListObjectsV2Input} {out : ListObjectsV2Output} :
    reply input = some (.ok out) → out.isTruncated = false → Pages reply input [out]
  | next {input : ListObjectsV2Input} {out : ListObjectsV2Output} {token : String}
      {pages : List ListObjectsV2Output} :
    reply input = some (.ok out) → out.isTruncated = true → out.nextContinuationToken = some token →
      Pages reply { input with continuationToken := some token } pages → Pages reply input (out :: pages)

/-- **A listing in pages of at most `limit` entries**: together they are the objects and the common
prefixes of the whole listing that come after `start_after`, each once and in order. -/
def PagedExact (reply : ListObjectsV2Input → Option (Except StorageError ListObjectsV2Output))
    (input : ListObjectsV2Input) (limit : Nat) (whole : ListResult) : Prop :=
  let after : String → Bool := fun key => input.startAfter.all fun k => k < key
  ∃ first rest, Pages reply { input with maxKeys := some limit } (first :: rest) ∧
    (first.isTruncated = true ↔ rest.flatMap (·.contents) ≠ [] ∨ rest.flatMap (·.groups) ≠ []) ∧
    (∀ out ∈ first :: rest, out.contents.length + out.groups.length ≤ limit) ∧
    (first :: rest).flatMap (·.contents) = whole.objects.filter (fun o => after o.key) ∧
    (first :: rest).flatMap (·.groups) = whole.commonPrefixes.filter after

section Handler

variable {V W : Type} [Backend V W] {n : Nat}

/-- `list_objects_v2`; `none` when it panics. -/
def listObjectsV2 (p : Pool V n) (input : ListObjectsV2Input) :
    Option (Except StorageError ListObjectsV2Output) :=
  (listObjects input.bucket input.options p).map fun r => r.map (listOutput input)

variable {p : Pool V n} {bucket : String} {opts : ListOptions}

/-- The limit decides the flag of a listing only. -/
theorem listObjects_limit (limit : Nat) : listObjects bucket { opts with maxKeys := limit + 1 } p =
      (listObjects bucket opts p).map fun r => r.map fun result =>
        { result with
          isTruncated := decide (limit + 1 < result.objects.length + result.commonPrefixes.length) } := by
  unfold listObjects
  dsimp only
  split
  · rfl
  · have hkey : listKey bucket { opts with maxKeys := limit + 1 } p = listKey bucket opts p := rfl
    rw [hkey]
    cases (listedKeys bucket opts.keyPrefix p).foldlM (listKey bucket opts p) ([], []) with
    | none => rfl
    | some r => rfl

/-- **Pages are right if there is only one**, and all entries come after `start_after`. -/
theorem paged_exact_iff (p : Pool V n) (input : ListObjectsV2Input) (limit : Nat) :
    (∃ whole, listObjects input.bucket input.options p = some (.ok whole) ∧
      PagedExact (listObjectsV2 p) input (limit + 1) whole) ↔
    ∃ whole, listObjects input.bucket input.options p = some (.ok whole) ∧
      whole.objects.length + whole.commonPrefixes.length ≤ limit + 1 ∧
      ∀ k, input.startAfter = some k →
        (∀ o ∈ whole.objects, k < o.key) ∧ ∀ cp ∈ whole.commonPrefixes, k < cp := by
  refine exists_congr fun whole => and_congr_right fun hwhole => ?_
  set request : ListObjectsV2Input := { input with maxKeys := some ((limit + 1 : Nat) : Int) } with hrequest
  set truncated := decide (limit + 1 < whole.objects.length + whole.commonPrefixes.length) with htruncated
  have hreply : listObjectsV2 p request =
      some (.ok (listOutput request { whole with isTruncated := truncated })) := by
    have hlimit := @listObjects_limit V W _ n p input.bucket input.options limit
    rw [hwhole] at hlimit
    exact congrArg (Option.map fun r => r.map (listOutput request)) hlimit
  have hgroups : (listOutput request { whole with isTruncated := truncated }).groups = whole.commonPrefixes := by
    unfold ListObjectsV2Output.groups listOutput
    cases whole.commonPrefixes <;> rfl
  constructor
  · rintro ⟨first, rest, hpages, -, hlimit, hobjects, hprefixes⟩
    cases hpages with
    | next hr _ htoken _ =>
      rw [hreply] at hr
      cases hr
      cases htoken
    | last hr _ =>
      rw [hreply] at hr
      cases hr
      simp only [flatMap_cons, flatMap_nil, append_nil, hgroups] at hobjects hprefixes
      have hcount := hlimit _ mem_cons_self
      rw [hgroups] at hcount
      refine ⟨hcount, fun k hk => ⟨fun o ho => ?_, fun cp hcp => ?_⟩⟩
      · have hafter := filter_eq_self.mp hobjects.symm o ho
        simpa [hk] using hafter
      · have hafter := filter_eq_self.mp hprefixes.symm cp hcp
        simpa [hk] using hafter
  · rintro ⟨hcount, hafter⟩
    have hlast : truncated = false := decide_eq_false (by omega)
    have hall : ∀ key, (∀ k, input.startAfter = some k → k < key) →
        input.startAfter.all (fun k => decide (k < key)) = true := by
      intro key hkey
      rw [Option.all_eq_true]
      exact fun k hk => decide_eq_true (hkey k hk)
    refine ⟨_, [], .last hreply hlast, ?_, ?_, ?_, ?_⟩
    · exact iff_of_false (by rw [listOutput, hlast]; exact Bool.false_ne_true) (by simp)
    · intro out hout
      rw [mem_singleton.mp hout, hgroups]
      exact hcount
    · rw [filter_eq_self.mpr fun o ho => hall o.key fun k hk => (hafter k hk).1 o ho]
      exact append_nil _
    · rw [filter_eq_self.mpr fun cp hcp => hall cp fun k hk => (hafter k hk).2 cp hcp]
      exact (append_nil _).trans hgroups

end Handler

/-- One disk with `k` and `l`. -/
def twoKeys : Pool LocalVolume 1 :=
  ((PutCall.stream { sampleRequest with key := "l", contentLength := some 1 } true [.ok (utf8 "x")]).run
    sampleEnv oneConfig (putX.run sampleEnv oneConfig (onePool [] none)).2).2

/-- **The second page is missing.** A page of one of them has both, says that there are more, and has no
token. -/
theorem second_page_missing :
    (listObjectsV2 twoKeys { bucket := "bkt", maxKeys := some 1 }).map (fun r => r.toOption.map fun out =>
      (out.contents.map ObjectInfo.key, out.isTruncated, out.nextContinuationToken)) =
        some (some (["k", "l"], true, none)) := by
  decide +kernel

end Abixio
