import Abixio.Storage.KeyIndependence

/-!
# Principals of bucket policies

Model of `principal_matches` (`src/policy/eval.rs:67-93`). A caller is its access key, which is empty for an
anonymous one (`src/s3_access.rs:47-58`).

* An entry matches if it is `*`, if it is the key, or if its text after the last slash is the key. Nothing
  looks at what is before the slash.
* `Named` is what a list of AWS principals is for: `*`, the key itself, and the ARNs of the user or the root
  with that name.

`principals_exact_iff`: where the two differ.
-/

namespace Abixio

open List

/-- `Principal`. -/
inductive Principal where
  | anyone
  | aws (list : List String)

/-- `principal_entry_matches`. -/
def principalEntryMatches (entry accessKey : String) : Bool :=
  if entry = "*" then true
  else if entry = accessKey then true
  else
    -- `entry.rsplit('/').next()`
    match (keySegments entry).getLast? with
    | some tail => tail = accessKey
    | none => false

/-- `principal_matches`. -/
def principalMatches (principal : Principal) (accessKey : String) : Bool :=
  match principal with
  | .anyone => true
  | .aws list => if list.isEmpty then false else list.any fun p => principalEntryMatches p accessKey

/-- `arn:partition:service:region:account:user/name`, or `root/name`. -/
def IsUserArn (entry name : String) : Prop :=
  ∃ fields : List (List Char), fields.length = 4 ∧ (∀ field ∈ fields, ':' ∉ field) ∧
    ∃ kind ∈ ["user", "root"], entry.toList =
      "arn".toList ++ fields.flatMap (':' :: ·) ++ ':' :: kind.toList ++ '/' :: name.toList

/-- The list names the caller. -/
def Named (list : List String) (accessKey : String) : Prop :=
  "*" ∈ list ∨ accessKey ≠ "" ∧ (accessKey ∈ list ∨ ∃ entry ∈ list, IsUserArn entry accessKey)

/-- **A list of principals matches the callers it names.** -/
def PrincipalsExact (list : List String) (accessKey : String) : Prop :=
  principalMatches (.aws list) accessKey = true ↔ Named list accessKey

variable {list : List String} {entry accessKey : String}

theorem tail_of_slash {front : List Char} (h : entry.toList = front ++ '/' :: accessKey.toList) :
    (keySegments entry).getLast? = (keySegments accessKey).getLast? := by
  unfold keySegments
  rw [h, splitOn_append_cons_self, map_append, getLast?_append_of_ne_nil]
  simp [splitOn_ne_nil]

theorem slash_free_of_tail (h : (keySegments entry).getLast? = some accessKey) :
    '/' ∉ accessKey.toList :=
  slash_not_mem_segment (mem_of_getLast? h)

/-- The tail of an ARN is the name, unless the name has a slash. -/
theorem IsUserArn.tail_iff (h : IsUserArn entry accessKey) :
    (keySegments entry).getLast? = some accessKey ↔ '/' ∉ accessKey.toList := by
  obtain ⟨fields, -, -, kind, -, he⟩ := h
  refine ⟨slash_free_of_tail, fun hfree => ?_⟩
  rw [tail_of_slash he, keySegments_of_slash_free hfree]
  rfl

/-- What the loop over the list looks for. -/
theorem principalMatches_iff : principalMatches (.aws list) accessKey = true ↔
    "*" ∈ list ∨ accessKey ∈ list ∨ ∃ entry ∈ list, (keySegments entry).getLast? = some accessKey := by
  have hentry : ∀ entry, principalEntryMatches entry accessKey = true ↔
      entry = "*" ∨ entry = accessKey ∨ (keySegments entry).getLast? = some accessKey := by
    intro entry
    unfold principalEntryMatches
    split_ifs with hstar hkey
    · simp [hstar]
    · simp [hkey]
    · cases (keySegments entry).getLast? <;> simp [hstar, hkey]
  cases list with
  | nil => simp [principalMatches]
  | cons first rest =>
    simp only [principalMatches, isEmpty_cons, Bool.false_eq_true, if_false, any_eq_true, hentry]
    grind

/-- **When a list matches exactly the callers it names**: it contains `*` or the key itself, or
no entry ends in a slash and the key but for an ARN of that user, and no such ARN has a name with a slash. -/
theorem principals_exact_iff (list : List String) (accessKey : String) :
    PrincipalsExact list accessKey ↔ "*" ∈ list ∨ accessKey ≠ "" ∧ accessKey ∈ list ∨
      (∀ entry ∈ list, (keySegments entry).getLast? = some accessKey →
        accessKey ≠ "" ∧ ∃ entry ∈ list, IsUserArn entry accessKey) ∧
      ∀ entry ∈ list, IsUserArn entry accessKey → '/' ∉ accessKey.toList := by
  unfold PrincipalsExact Named
  rw [principalMatches_iff]
  by_cases hstar : "*" ∈ list
  · simp [hstar]
  by_cases hkey : accessKey ≠ "" ∧ accessKey ∈ list
  · simp [hkey]
  -- an empty key in the list is the tail of itself
  have hself : accessKey ∈ list → ∃ entry ∈ list, (keySegments entry).getLast? = some accessKey := by
    intro hmem
    obtain rfl : accessKey = "" := by
      by_contra hne
      exact hkey ⟨hne, hmem⟩
    exact ⟨"", hmem, by decide⟩
  simp only [hstar, hkey, false_or]
  constructor
  · intro hexact
    refine ⟨fun entry hmem htail => ?_, fun entry hmem harn => ?_⟩
    · obtain ⟨hne, hin | harn⟩ := hexact.mp (Or.inr ⟨entry, hmem, htail⟩)
      · exact absurd ⟨hne, hin⟩ hkey
      · exact ⟨hne, harn⟩
    · by_cases hne : accessKey = ""
      · simp [hne]
      · obtain ⟨entry', -, htail⟩ :=
          (hexact.mpr ⟨hne, Or.inr ⟨entry, hmem, harn⟩⟩).elim hself id
        exact slash_free_of_tail htail
  · rintro ⟨htails, hfree⟩
    constructor
    · intro hmatch
      obtain ⟨entry, hmem, htail⟩ := hmatch.elim hself id
      obtain ⟨hne, harn⟩ := htails entry hmem htail
      exact ⟨hne, Or.inr harn⟩
    · rintro ⟨hne, hin | ⟨entry, hmem, harn⟩⟩
      · exact absurd ⟨hne, hin⟩ hkey
      · exact Or.inr ⟨entry, hmem, harn.tail_iff.mpr (hfree entry hmem harn)⟩

/-- **A role matches the user of its name, and a user without a name everyone.** -/
theorem principals_confused :
    ¬ PrincipalsExact ["arn:aws:iam::1:role/alice"] "alice" ∧ ¬ PrincipalsExact ["arn:aws:iam::1:user/"] "" := by
  refine ⟨fun h => ?_, fun h => ?_⟩
  · obtain hstar | ⟨-, hin | ⟨entry, hmem, fields, -, -, kind, hkind, he⟩⟩ := h.mp (by decide)
    · exact absurd hstar (by decide)
    · exact absurd hin (by decide)
    · have hsuffix : (':' :: kind.toList ++ '/' :: "alice".toList) <:+ entry.toList := by
        rw [he, append_assoc, append_assoc]
        exact suffix_append_of_suffix (suffix_append _ _)
      simp only [mem_cons, not_mem_nil, or_false] at hmem hkind
      rw [hmem] at hsuffix
      rcases hkind with rfl | rfl
      · exact absurd hsuffix (by decide)
      · exact absurd hsuffix (by decide)
  · obtain hstar | ⟨hne, -⟩ := h.mp (by decide)
    · exact absurd hstar (by decide)
    · exact hne rfl

end Abixio
