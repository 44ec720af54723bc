import Abixio.S3.GetBody

/-!
# GETs with a range

Model of `get_object_buffered` (`src/s3_service.rs:147-224`), which answers a GET that has a range or a
version id, and of `check_conditionals` (`src/s3_service.rs:268-315`).

* Nothing checks `total - 1`: on an empty object it underflows, a panic in debug builds. `none` stands
  for an underflow or for a slice out of bounds.
* A range that starts behind the end of the object is answered with all of it.

`range_exact_iff`: a range is answered exactly if it starts in the object, which is not empty.
`range_past_end` is a range behind the end.
-/

namespace Abixio

/-- `Range`. -/
inductive Range where
  | int (first : Nat) (last : Option Nat)
  | suffix (length : Nat)

/-- `ETagCondition`. -/
inductive ETagCondition where
  | any
  | eTag (value : String)

/-- `GetObjectInput`; dates in seconds. -/
structure GetObjectInput where
  bucket : String
  key : String
  versionId : Option String := none
  range : Option Range
  ifMatch : Option ETagCondition := none
  ifNoneMatch : Option ETagCondition := none
  ifModifiedSince : Option Int := none
  ifUnmodifiedSince : Option Int := none

/-- `GetObjectOutput`. -/
structure GetObjectOutput where
  body : ChunkedBytes
  contentLength : Nat
  contentType : String
  eTag : String
  lastModified : Nat
  metadata : Option StringMap
  contentRange : Option String
  versionId : Option String

/-- The errors of a GET. -/
inductive GetError where
  | storage (e : StorageError)
  | preconditionFailed
  | notModified

def ETagCondition.matches (etag : String) : ETagCondition → Bool
  | .any => true
  | .eTag value => value = etag

/-- `check_conditionals`. -/
def checkConditionals (input : GetObjectInput) (etag : String) (lastModified : Nat) :
    Except GetError Unit :=
  if input.ifMatch.any fun c => !c.matches etag then .error .preconditionFailed
  else if input.ifUnmodifiedSince.any fun since => since < (lastModified : Int) then .error .preconditionFailed
  else if input.ifNoneMatch.any fun c => c.matches etag then .error .notModified
  else if input.ifModifiedSince.any fun since => (lastModified : Int) ≤ since then .error .notModified
  else .ok ()

/-- `a - b` on a `usize`, if it does not underflow. -/
def checkedSub (a b : Nat) : Option Nat := if b ≤ a then some (a - b) else none

/-- The first and the last position of a range. -/
def rangeBounds (total : Nat) : Range → Option (Nat × Nat)
  | .int first last => do
    let bound ← checkedSub total 1
    some (first, min (last.getD bound) bound)
  | .suffix length => do
    let start ← checkedSub total (min length total)
    let bound ← checkedSub total 1
    some (start, bound)

/-- `data[start..=last]`. -/
def sliceInclusive (data : Bytes) (start last : Nat) : Option Bytes :=
  if start ≤ last + 1 ∧ last < data.length then some ((data.take (last + 1)).drop start) else none

/-- The content range of an answer. -/
def rangeText (start last total : Nat) : String := s!"bytes {start}-{last}/{total}"

/-- The bytes of an answer, with their content range. -/
def rangeBody (data : Bytes) : Option Range → Option (Bytes × Option String)
  | none => some (data, none)
  | some range => do
    let (start, last) ← rangeBounds data.length range
    if start < data.length then
      (sliceInclusive data start last).map fun slice => (slice, some (rangeText start last data.length))
    else some (data, none)

/-- The answer to a GET. -/
def bufferedOutput (info : ObjectInfo) (body : Bytes) (contentRange : Option String) : GetObjectOutput where
  body := .new [body] body.length
  contentLength := body.length
  contentType := info.contentType
  eTag := info.etag
  lastModified := info.createdAt
  metadata := if info.userMetadata.isEmpty then none else some info.userMetadata
  contentRange := contentRange
  versionId := if info.versionId.isEmpty then none else some info.versionId

section Buffered

variable {V W : Type} [Backend V W] {n : Nat} (env : Env)

/-- The object of a request. -/
def requestedObject (input : GetObjectInput) : PoolOp V n (Bytes × ObjectInfo) :=
  match input.versionId with
  | some vid => Lib.Act.query (getObjectVersion env input.bucket input.key vid)
  | none => getObject env input.bucket input.key

/-- `get_object_buffered`; `none` when it panics. -/
def getObjectBuffered (input : GetObjectInput) (p : Pool V n) : Option (Except GetError GetObjectOutput) :=
  match (requestedObject env input p).1 with
  | .error e => some (.error (.storage e))
  | .ok (data, info) =>
    match checkConditionals input info.etag info.createdAt with
    | .error e => some (.error e)
    | .ok () => (rangeBody data input.range).map fun r => .ok (bufferedOutput info r.1 r.2)

end Buffered

/-- The bytes that a response sends. -/
def GetObjectOutput.bytes (out : GetObjectOutput) : Bytes := out.body.queue.flatten

/-- **A range is answered exactly.** Behind the end, and on an empty object, no bytes are sent. -/
def RangeExact (data : Bytes) (range : Range) (answer : Option (Except GetError GetObjectOutput)) : Prop :=
  ∃ r, answer = some r ∧
    match range with
    | .int first last =>
      let bound := min (last.getD (data.length - 1)) (data.length - 1)
      if first < data.length then
        ∃ out, r = .ok out ∧ out.bytes = (data.take (bound + 1)).drop first ∧
          out.contentRange = some (rangeText first bound data.length)
      else ∀ out, r = .ok out → out.bytes = []
    | .suffix m =>
      if data = [] then ∀ out, r = .ok out → out.bytes = []
      else 1 ≤ m → ∃ out, r = .ok out ∧ out.bytes = data.drop (data.length - min m data.length)

/-- The range does not end before it starts. -/
def Range.Ordered : Range → Prop
  | .int first last => ∀ l ∈ last, first ≤ l
  | .suffix _ => True

variable {data : Bytes}

theorem rangeBody_int {first : Nat} {last : Option Nat} (h : first < data.length)
    (hordered : (Range.int first last).Ordered) :
    let bound := min (last.getD (data.length - 1)) (data.length - 1)
    rangeBody data (some (.int first last)) =
      some ((data.take (bound + 1)).drop first, some (rangeText first bound data.length)) := by
  intro bound
  have hbound : first ≤ bound + 1 ∧ bound < data.length := by
    have hlast : first ≤ last.getD (data.length - 1) := by
      cases last with
      | none => exact Nat.le_sub_one_of_lt h
      | some l => exact hordered l rfl
    omega
  have hpos : 1 ≤ data.length := by omega
  simp only [rangeBody, rangeBounds, checkedSub, if_pos hpos, Option.bind_eq_bind, Option.bind_some, if_pos h]
  rw [sliceInclusive, if_pos hbound]
  rfl

theorem rangeBody_past {first : Nat} {last : Option Nat} (hpos : 1 ≤ data.length)
    (h : ¬ first < data.length) : rangeBody data (some (.int first last)) = some (data, none) := by
  simp only [rangeBody, rangeBounds, checkedSub, if_pos hpos, Option.bind_eq_bind, Option.bind_some, if_neg h]

/-- A suffix of an object that is not empty is answered, and one of length zero with all of it. -/
theorem rangeBody_suffix (m : Nat) (hpos : 1 ≤ data.length) :
    ∃ contentRange, rangeBody data (some (.suffix m)) =
      some (if m = 0 then data else data.drop (data.length - min m data.length), contentRange) := by
  simp only [rangeBody, rangeBounds, checkedSub, if_pos hpos, if_pos (Nat.min_le_right m _),
    Option.bind_eq_bind, Option.bind_some]
  by_cases hm : m = 0
  · subst hm
    exact ⟨none, by simp⟩
  · have hslice : data.length - min m data.length ≤ data.length - 1 + 1 ∧ data.length - 1 < data.length := by
      omega
    rw [if_pos (by omega), sliceInclusive, if_pos hslice, Nat.sub_add_cancel hpos, List.take_length,
      if_neg hm]
    exact ⟨_, rfl⟩

theorem rangeBody_empty (range : Range) : rangeBody [] (some range) = none := by
  cases range with
  | int first last => rfl
  | suffix m => simp [rangeBody, rangeBounds, checkedSub]

/-- **A range is answered exactly if it starts in the object**, which is not empty. -/
theorem range_exact_iff {V W : Type} [Backend V W] {n : Nat} {env : Env} {p : Pool V n}
    {input : GetObjectInput} {info : ObjectInfo} {range : Range}
    (hget : (requestedObject env input p).1 = .ok (data, info))
    (hcond : checkConditionals input info.etag info.createdAt = .ok ())
    (hrange : input.range = some range) (hordered : range.Ordered) :
    RangeExact data range (getObjectBuffered env input p) ↔
      1 ≤ data.length ∧ ∀ first last, range = .int first last → first < data.length := by
  have hanswer : getObjectBuffered env input p =
      (rangeBody data (some range)).map fun r => .ok (bufferedOutput info r.1 r.2) := by
    simp only [getObjectBuffered, hget, hcond, hrange]
  have hbytes : ∀ body text, (bufferedOutput info body text).bytes = body := fun body _ =>
    List.append_nil body
  rw [hanswer]
  by_cases hpos : 1 ≤ data.length
  · rw [and_iff_right hpos]
    cases range with
    | int first last =>
      by_cases h : first < data.length
      · refine iff_of_true ?_ fun first' last' he => ?_
        · rw [rangeBody_int h hordered]
          refine ⟨_, rfl, ?_⟩
          dsimp only
          rw [if_pos h]
          exact ⟨_, rfl, hbytes _ _, rfl⟩
        · cases he
          exact h
      · refine iff_of_false ?_ fun hall => h (hall first last rfl)
        rintro ⟨r, hr, hexact⟩
        rw [rangeBody_past hpos h] at hr
        dsimp only at hexact
        rw [if_neg h] at hexact
        have hnil : data = [] := (hbytes data none).symm.trans (hexact _ (Option.some.inj hr).symm)
        exact absurd hpos (by simp [hnil])
    | suffix m =>
      refine iff_of_true ?_ fun _ _ he => nomatch he
      obtain ⟨text, hbody⟩ := rangeBody_suffix m hpos
      refine ⟨_, congrArg _ hbody, ?_⟩
      dsimp only
      rw [if_neg (List.ne_nil_of_length_pos hpos)]
      intro hm
      refine ⟨_, rfl, ?_⟩
      rw [hbytes, if_neg (by omega)]
  · obtain rfl : data = [] := List.eq_nil_of_length_eq_zero (by omega)
    refine iff_of_false ?_ fun h => hpos h.1
    rintro ⟨r, hr, -⟩
    rw [rangeBody_empty] at hr
    cases hr

/-- The first byte of `hi`. -/
theorem range_exact_iff_first : RangeExact (utf8 "hi") (.int 0 (some 0)) (getObjectBuffered pairEnv
      { bucket := "bkt", key := "k", range := some (.int 0 (some 0)) } (pairPut (utf8 "hi"))) := by
  have hget : (requestedObject pairEnv { bucket := "bkt", key := "k", range := some (.int 0 (some 0)) }
      (pairPut (utf8 "hi"))).1 = .ok (utf8 "hi", pairGeneration.info pairEnv "bkt" "k") := by
    decide +kernel
  refine (range_exact_iff hget rfl rfl fun l _ => Nat.zero_le l).mpr ⟨by decide, fun first last h => ?_⟩
  cases h
  decide

/-- **A range behind the end** of `hi` is answered with both bytes. -/
theorem range_past_end :
    (getObjectBuffered pairEnv { bucket := "bkt", key := "k", range := some (.int 5 (some 9)) }
      (pairPut (utf8 "hi"))).map (fun r => r.toOption.map fun out => (out.bytes, out.contentRange)) =
        some (some (utf8 "hi", none)) := by
  decide +kernel

end Abixio
