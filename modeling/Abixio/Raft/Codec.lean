import Abixio.Lib.Codec
import Abixio.Lib.Msgpack
import Abixio.Raft.Fsm

/-!
# The encodings of operations and of the state

A log entry holds an `Op` as `bincode::serialize` writes it (`src/raft/adapter/log.rs`), a snapshot a
`State` as `rmp_serde::to_vec` writes it (`src/raft/storage/snapshot.rs`).

* bincode writes the fields of a value in order and no names: a variant is a number of 32 bits, an option
  a byte 0 or 1. It is not self-describing, so a `serde_json::Value` can be written and not read
  (`deserialize_any` is an error). `bincode::deserialize` allows bytes behind the value.
* msgpack is modelled as message trees (`Lib.Msg`). `to_vec` writes a struct as the array of its fields.
  The decoder enters `levels` nested arrays and maps at most.
* Every field of `BucketSettings` has `skip_serializing_if = "Option::is_none"`. Both formats then write
  nothing for it. In bincode the next byte is read as the option's tag; in msgpack the array is shorter
  than the five elements that the derived `visit_seq` asks for, which is an error.
* A map is written as its entries, and read as the entries in their order.

Result: `survives_iff`, from `deserializeOp_iff` and `Msgpack.fits_state`. An operation survives exactly if
it does not set bucket settings. A state survives exactly if the settings of every bucket have all five
fields, and a policy that is not JSON null and not nested too deep.
-/

namespace Abixio.Raft

open List Option

open Lib (Codec Decoder)
open Lib.Codec (uint pair vec str u64)

/-! ## bincode: records -/

variable {s : BucketSettings}

namespace Bincode

/-- `VoterKind`. -/
def voterKind : Codec VoterKind where
  encode
    | .voter => (uint 4).encode 0
    | .observer => (uint 4).encode 1
  decode bs := ((uint 4).decode bs).bind fun tag =>
    match tag.1 with
    | 0 => some (.voter, tag.2)
    | 1 => some (.observer, tag.2)
    | _ => none
  Fits _ := True
  decode_encode k _ rest := by
    cases k with
    | voter => rw [(uint 4).decode_encode 0 (show 0 < 256 ^ 4 by decide)]; rfl
    | observer => rw [(uint 4).decode_encode 1 (show 1 < 256 ^ 4 by decide)]; rfl

/-- `PlacementVolume`. -/
def placementVolume : Codec PlacementVolume :=
  (u64.pair (str.pair str)).imap (fun f => ⟨f.1, f.2.1, f.2.2⟩)
    (fun v => (v.backendIndex, v.nodeId, v.volumeId)) fun _ => rfl

/-- `HashMap<String, String>`. -/
def stringMap : Codec StringMap := vec (str.pair str)

/-- The fields of `AddNode`. -/
def addNode : Codec (String × String × String × VoterKind × UInt64) :=
  str.pair (str.pair (str.pair (voterKind.pair u64)))

/-- The fields of `SetPlacementEpoch`. -/
def setPlacementEpoch : Codec (UInt64 × String × List PlacementVolume) :=
  u64.pair (str.pair (vec placementVolume))

/-! ## bincode: bucket settings -/

/-- An option as it is read. -/
def option {α : Type} (d : Decoder α) : Decoder (Option α)
  | [] => none
  | tag :: bs =>
    if tag = 0 then some (none, bs)
    else if tag = 1 then (d bs).map fun a => (some a.1, a.2)
    else none

/-- A field with `skip_serializing_if = "Option::is_none"`. -/
def unlessNone {α : Type} (encode : α → List UInt8) : Option α → List UInt8
  | none => []
  | some a => 1 :: encode a

/-- `Number::serialize`. -/
def jsonNumber : JsonNumber → List UInt8
  | .posInt n => u64.encode n
  | .negInt n => (uint 8).encode (2 ^ 64 - 1 - n.val)
  | .float bits => u64.encode bits.val

mutual

/-- `Value::serialize`. -/
def json : Json → List UInt8
  | .null => []
  | .bool b => [if b then 1 else 0]
  | .number n => jsonNumber n
  | .string s => str.encode s
  | .array items => (uint 8).encode items.length ++ jsonItems items
  | .object entries => (uint 8).encode entries.length ++ jsonEntries entries

/-- The items of an array. -/
def jsonItems : List Json → List UInt8
  | [] => []
  | j :: items => json j ++ jsonItems items

/-- The entries of an object. -/
def jsonEntries : List (String × Json) → List UInt8
  | [] => []
  | (k, j) :: entries => str.encode k ++ (json j ++ jsonEntries entries)

end

/-- `Value::deserialize` asks for `deserialize_any`: `DeserializeAnyNotSupported`. -/
def anyValue : Decoder Json := fun _ => none

/-- `BucketSettings::serialize`. -/
def encodeSettings (s : BucketSettings) : List UInt8 :=
  unlessNone str.encode s.versioning ++ (unlessNone (uint 8).encode s.ftt ++
    (unlessNone stringMap.encode s.tags ++ (unlessNone json s.policy ++
      unlessNone str.encode s.lifecycle)))

/-- `BucketSettings::deserialize`. -/
def decodeSettings : Decoder BucketSettings := fun bs =>
  (option str.decode bs).bind fun versioning =>
  (option (uint 8).decode versioning.2).bind fun ftt =>
  (option stringMap.decode ftt.2).bind fun tags =>
  (option anyValue tags.2).bind fun policy =>
  (option str.decode policy.2).map fun lifecycle =>
  (⟨versioning.1, ftt.1, tags.1, policy.1, lifecycle.1⟩, lifecycle.2)

/-! ## bincode: operations -/

/-- `Op::serialize`. -/
def encodeOp : Op → List UInt8
  | .addNode nodeId advertiseS3 advertiseCluster voterKind addedAtUnixSecs =>
    (uint 4).encode 0 ++
      addNode.encode (nodeId, advertiseS3, advertiseCluster, voterKind, addedAtUnixSecs)
  | .removeNode nodeId => (uint 4).encode 1 ++ str.encode nodeId
  | .setPlacementEpoch epochId clusterId volumes =>
    (uint 4).encode 2 ++ setPlacementEpoch.encode (epochId, clusterId, volumes)
  | .setBucketSettings bucket settings =>
    (uint 4).encode 3 ++ (str.encode bucket ++ encodeSettings settings)
  | .deleteBucketSettings bucket => (uint 4).encode 4 ++ str.encode bucket

/-- `Op::deserialize`. -/
def decodeOp : Decoder Op := fun bs =>
  ((uint 4).decode bs).bind fun variant =>
    match variant.1 with
    | 0 => (addNode.decode variant.2).map fun f =>
        (.addNode f.1.1 f.1.2.1 f.1.2.2.1 f.1.2.2.2.1 f.1.2.2.2.2, f.2)
    | 1 => (str.decode variant.2).map fun f => (.removeNode f.1, f.2)
    | 2 => (setPlacementEpoch.decode variant.2).map fun f =>
        (.setPlacementEpoch f.1.1 f.1.2.1 f.1.2.2, f.2)
    | 3 => (str.decode variant.2).bind fun bucket =>
        (decodeSettings bucket.2).map fun settings =>
          (.setBucketSettings bucket.1 settings.1, settings.2)
    | 4 => (str.decode variant.2).map fun f => (.deleteBucketSettings f.1, f.2)
    | _ => none

/-- The lengths and numbers of the settings are 64-bit words, as those of every value in memory are. -/
structure SizedSettings (s : BucketSettings) : Prop where
  versioning : ∀ v, s.versioning = some v → str.Fits v
  ftt : ∀ n, s.ftt = some n → (uint 8).Fits n
  tags : ∀ t, s.tags = some t → stringMap.Fits t

/-- The same of an operation. -/
def Sized : Op → Prop
  | .addNode nodeId advertiseS3 advertiseCluster voterKind addedAtUnixSecs =>
    addNode.Fits (nodeId, advertiseS3, advertiseCluster, voterKind, addedAtUnixSecs)
  | .removeNode nodeId => str.Fits nodeId
  | .setPlacementEpoch epochId clusterId volumes =>
    setPlacementEpoch.Fits (epochId, clusterId, volumes)
  | .setBucketSettings bucket settings => str.Fits bucket ∧ SizedSettings settings
  | .deleteBucketSettings bucket => str.Fits bucket

/-- The operation sets bucket settings. -/
def SetsSettings : Op → Prop
  | .setBucketSettings _ _ => True
  | _ => False

/-! ## bincode: what survives -/

/-- The bytes of a field behind skipped ones: nothing, or the tag of an option that is there. -/
def NoZeroTag (bs : List UInt8) : Prop := ∀ tag rest, bs = tag :: rest → tag = 1

theorem noZeroTag_unlessNone {α : Type} {encode : α → List UInt8} {o : Option α} {more : List UInt8}
    (h : NoZeroTag more) : NoZeroTag (unlessNone encode o ++ more) := by
  cases o with
  | none => exact h
  | some a =>
    rintro tag rest hbs
    exact (List.cons.inj hbs).1.symm

theorem noZeroTag_nil : NoZeroTag [] := nofun

/-- **A skipped option is not read as absent**: if the reader finds the value that was written, it was
there. -/
theorem option_unlessNone {α : Type} {c : Codec α} {o : Option α} {more rest : List UInt8}
    (hfits : ∀ a, o = some a → c.Fits a) (hmore : NoZeroTag more)
    (h : option c.decode (unlessNone c.encode o ++ more) = some (o, rest)) : rest = more := by
  cases o with
  | none =>
    cases more with
    | nil => cases h
    | cons tag more =>
      obtain rfl := hmore tag more rfl
      have h' : (c.decode more).map (fun a => (some a.1, a.2)) = some (none, rest) := h
      obtain ⟨a, -, ha⟩ := map_eq_some_iff.1 h'
      cases ha
  | some a =>
    have h' : (c.decode (c.encode a ++ more)).map (fun a => (some a.1, a.2)) = some (some a, rest) := h
    rw [c.decode_encode a (hfits a rfl)] at h'
    cases h'
    rfl

/-- No bytes are read as an absent policy if they hold no zero tag, and none as one that is there. -/
theorem option_anyValue {bs : List UInt8} (h : NoZeroTag bs) : option anyValue bs = none := by
  cases bs with
  | nil => rfl
  | cons tag bs =>
    obtain rfl := h tag bs rfl
    rfl

/-- **Settings are never read back.** -/
theorem decodeSettings_encodeSettings (hsized : SizedSettings s)
    (rest : List UInt8) : decodeSettings (encodeSettings s) ≠ some (s, rest) := by
  intro h
  obtain ⟨versioning, ftt, tags, policy, lifecycle⟩ := s
  have hlifecycle : NoZeroTag (unlessNone str.encode lifecycle) := by
    rw [← append_nil (unlessNone str.encode lifecycle)]
    exact noZeroTag_unlessNone noZeroTag_nil
  have hpolicy : NoZeroTag (unlessNone json policy ++ _) := noZeroTag_unlessNone hlifecycle
  have htags : NoZeroTag (unlessNone stringMap.encode tags ++ _) := noZeroTag_unlessNone hpolicy
  have hftt : NoZeroTag (unlessNone (uint 8).encode ftt ++ _) := noZeroTag_unlessNone htags
  simp only [decodeSettings, encodeSettings, bind_eq_some_iff, map_eq_some_iff,
    Prod.mk.injEq, BucketSettings.mk.injEq] at h
  obtain ⟨⟨_, r₁⟩, h₁, ⟨_, r₂⟩, h₂, ⟨_, r₃⟩, h₃, ⟨_, r₄⟩, h₄, -, -, ⟨rfl, rfl, rfl, -, -⟩, -⟩ := h
  obtain rfl := option_unlessNone hsized.versioning hftt h₁
  obtain rfl := option_unlessNone hsized.ftt htags h₂
  obtain rfl := option_unlessNone hsized.tags hpolicy h₃
  rw [option_anyValue hpolicy] at h₄
  cases h₄

/-- Every other operation is, whatever stands behind it. -/
theorem decodeOp_encodeOp {op : Op} (hsized : Sized op) (h : ¬ SetsSettings op) (rest : List UInt8) :
    decodeOp (encodeOp op ++ rest) = some (op, rest) := by
  have hvariant (k : Nat) (hk : k < 256 ^ 4) (bs : List UInt8) :
      (uint 4).decode ((uint 4).encode k ++ bs) = some (k, bs) := (uint 4).decode_encode k hk bs
  unfold decodeOp
  cases op with
  | addNode nodeId advertiseS3 advertiseCluster voterKind addedAtUnixSecs =>
    rw [encodeOp, append_assoc, hvariant 0 (by decide), bind_some]
    rw [addNode.decode_encode _ hsized]
    rfl
  | removeNode nodeId =>
    rw [encodeOp, append_assoc, hvariant 1 (by decide), bind_some]
    rw [str.decode_encode _ hsized]
    rfl
  | setPlacementEpoch epochId clusterId volumes =>
    rw [encodeOp, append_assoc, hvariant 2 (by decide), bind_some]
    rw [setPlacementEpoch.decode_encode _ hsized]
    rfl
  | setBucketSettings bucket settings => exact absurd trivial h
  | deleteBucketSettings bucket =>
    rw [encodeOp, append_assoc, hvariant 4 (by decide), bind_some]
    rw [str.decode_encode _ hsized]
    rfl

/-- Setting bucket settings is not. -/
theorem decodeOp_settings {op : Op} (hsized : Sized op) (h : SetsSettings op) (rest : List UInt8) :
    decodeOp (encodeOp op) ≠ some (op, rest) := by
  cases op with
  | setBucketSettings bucket settings =>
    intro hop
    unfold decodeOp at hop
    rw [encodeOp, (uint 4).decode_encode 3 (show 3 < 256 ^ 4 by decide), bind_some] at hop
    rw [str.decode_encode _ hsized.1, bind_some] at hop
    obtain ⟨⟨s, r⟩, hs, heq⟩ := map_eq_some_iff.1 hop
    cases heq
    exact decodeSettings_encodeSettings hsized.2 _ hs
  | _ => exact h.elim

end Bincode

/-! ## msgpack -/

variable {n : Nat}

namespace Msgpack

open Lib (Msg)
open Lib.Msg (Form Fields)
open Lib.Msg.Form (nat record option seq assoc readAll readEntries)

/-- `u64`. -/
def word : Form UInt64 where
  toMsg n := .int n.toNat
  ofMsg
    | _, .int (.ofNat n) => some (UInt64.ofNat n)
    | _, _ => none
  Fits _ _ := True
  ofMsg_toMsg _ _ := iff_of_true (congrArg some UInt64.ofNat_toNat) trivial

/-- `VoterKind`, by the name of the variant. -/
def voterKind : Form VoterKind where
  toMsg
    | .voter => .str "Voter"
    | .observer => .str "Observer"
  ofMsg
    | _, .str "Voter" => some .voter
    | _, .str "Observer" => some .observer
    | _, _ => none
  Fits _ _ := True
  ofMsg_toMsg _ k := iff_of_true (by cases k <;> rfl) trivial

/-- `Member`. -/
def member : Form Member :=
  (record (.cons Form.str (.cons Form.str (.cons Form.str (.cons voterKind (.cons word .nil)))))).equiv
    { toFun := fun f => ⟨f.1, f.2.1, f.2.2.1, f.2.2.2.1, f.2.2.2.2.1⟩
      invFun := fun m =>
        (m.nodeId, m.advertiseS3, m.advertiseCluster, m.voterKind, m.addedAtUnixSecs, ()) }

/-- `PlacementVolume`. -/
def placementVolume : Form PlacementVolume :=
  (record (.cons word (.cons Form.str (.cons Form.str .nil)))).equiv
    { toFun := fun f => ⟨f.1, f.2.1, f.2.2.1⟩
      invFun := fun v => (v.backendIndex, v.nodeId, v.volumeId, ()) }

/-- `Placement`. -/
def placement : Form Placement :=
  (record (.cons word (.cons Form.str (.cons (seq placementVolume) .nil)))).equiv
    { toFun := fun f => ⟨f.1, f.2.1, f.2.2.1⟩
      invFun := fun p => (p.epochId, p.clusterId, p.volumes, ()) }

/-- `Number`, written as an integer or a float. -/
def writeNumber : JsonNumber → Msg
  | .posInt n => .int (.ofNat n.toNat)
  | .negInt n => .int (.negSucc n.val)
  | .float bits => .float bits.val

mutual

/-- `Value::serialize`. -/
def writeJson : Json → Msg
  | .null => .nil
  | .bool b => .bool b
  | .number n => writeNumber n
  | .string s => .str s
  | .array items => .arr (writeItems items)
  | .object entries => .map (writeEntries entries)

/-- The items of an array. -/
def writeItems : List Json → List Msg
  | [] => []
  | j :: items => writeJson j :: writeItems items

/-- The entries of an object. -/
def writeEntries : List (String × Json) → List (Msg × Msg)
  | [] => []
  | (k, j) :: entries => (.str k, writeJson j) :: writeEntries entries

end

/-- `Value::deserialize`. A float that is not finite becomes null. -/
def readJson : Nat → Msg → Option Json
  | _, .nil => some .null
  | _, .bool b => some (.bool b)
  | _, .int (.ofNat n) => some (.number (.posInt (UInt64.ofNat n)))
  | _, .int (.negSucc n) => if h : n < 2 ^ 63 then some (.number (.negInt ⟨n, h⟩)) else none
  | _, .float bits =>
    if h : bits >>> 52 &&& 0x7ff ≠ 0x7ff then some (.number (.float ⟨bits, h⟩)) else some .null
  | _, .str s => some (.string s)
  | 0, .arr _ => none
  | n + 1, .arr items => (readAll (readJson n) items).map .array
  | 0, .map _ => none
  | n + 1, .map entries => (readEntries (Form.str.ofMsg n) (readJson n) entries).map .object

mutual

/-- The nested arrays and objects of a value are at most `n` deep. -/
def nested : Nat → Json → Prop
  | _, .null | _, .bool _ | _, .number _ | _, .string _ => True
  | 0, .array _ | 0, .object _ => False
  | n + 1, .array items => nestedItems n items
  | n + 1, .object entries => nestedEntries n entries

/-- So are those of the items. -/
def nestedItems : Nat → List Json → Prop
  | _, [] => True
  | n, j :: items => nested n j ∧ nestedItems n items

/-- So are those of the entries. -/
def nestedEntries : Nat → List (String × Json) → Prop
  | _, [] => True
  | n, (_, j) :: entries => nested n j ∧ nestedEntries n entries

end

theorem writeItems_eq (items : List Json) : writeItems items = items.map writeJson := by
  induction items with
  | nil => rfl
  | cons j items ih => rw [writeItems, ih, map_cons]

theorem writeEntries_eq (entries : List (String × Json)) :
    writeEntries entries = entries.map fun e => (Form.str.toMsg e.1, writeJson e.2) := by
  induction entries with
  | nil => rfl
  | cons e entries ih => rw [writeEntries, ih, map_cons]; rfl

theorem nestedItems_iff {items : List Json} : nestedItems n items ↔ ∀ j ∈ items, nested n j := by
  induction items with
  | nil => exact iff_of_true trivial nofun
  | cons j items ih => rw [nestedItems, ih, forall_mem_cons]

theorem nestedEntries_iff {entries : List (String × Json)} :
    nestedEntries n entries ↔ ∀ e ∈ entries, nested n e.2 := by
  induction entries with
  | nil => exact iff_of_true trivial nofun
  | cons e entries ih => rw [nestedEntries, ih, forall_mem_cons]

theorem readJson_writeNumber (n : Nat) (k : JsonNumber) :
    readJson n (writeNumber k) = some (.number k) := by
  cases k with
  | posInt k => rw [writeNumber, readJson, UInt64.ofNat_toNat]
  | negInt k => rw [writeNumber, readJson, dif_pos k.isLt]
  | float bits => rw [writeNumber, readJson, dif_pos bits.property]

/-- **JSON survives** as far as the decoder enters it. -/
theorem readJson_writeJson (n : Nat) : ∀ j, readJson n (writeJson j) = some j ↔ nested n j := by
  induction n with
  | zero =>
    intro j
    cases j with
    | null | bool | string => exact iff_of_true rfl trivial
    | number k => exact iff_of_true (readJson_writeNumber 0 k) trivial
    | array | object => exact iff_of_false nofun id
  | succ n ih =>
    intro j
    cases j with
    | null | bool | string => exact iff_of_true rfl trivial
    | number k => exact iff_of_true (readJson_writeNumber (n + 1) k) trivial
    | array items =>
      have hread : readJson (n + 1) (writeJson (.array items)) = some (.array items) ↔
          readAll (readJson n) (writeItems items) = some items := by
        exact map_eq_some_iff.trans
          ⟨fun ⟨_, ha, heq⟩ => Json.array.inj heq ▸ ha, fun h => ⟨items, h, rfl⟩⟩
      rw [hread, writeItems_eq, Form.readAll_map, nested, nestedItems_iff]
      exact forall₂_congr fun j _ => ih j
    | object entries =>
      have hread : readJson (n + 1) (writeJson (.object entries)) = some (.object entries) ↔
          readEntries (Form.str.ofMsg n) (readJson n) (writeEntries entries) = some entries := by
        exact map_eq_some_iff.trans
          ⟨fun ⟨_, ha, heq⟩ => Json.object.inj heq ▸ ha, fun h => ⟨entries, h, rfl⟩⟩
      rw [hread, writeEntries_eq, Form.readEntries_map, nested, nestedEntries_iff]
      exact forall₂_congr fun e _ => (and_iff_right rfl).trans (ih e.2)

/-- `Value`. -/
def json : Form Json := ⟨writeJson, readJson, nested, readJson_writeJson⟩

theorem isNil_json {j : Json} : (json.toMsg j).isNil = false ↔ j ≠ .null := by
  cases j with
  | null => exact iff_of_false Bool.true_eq_false.mp fun h => h rfl
  | number k => exact iff_of_true (by cases k <;> rfl) (by simp)
  | bool | string | array | object => exact iff_of_true rfl (by simp)

/-- The five fields of `BucketSettings`, none skipped. -/
def settingsFields :
    Fields (Option String × Option Nat × Option StringMap × Option Json × Option String × Unit) :=
  .cons (option Form.str) (.cons (option nat) (.cons (option (assoc Form.str Form.str))
    (.cons (option json) (.cons (option Form.str) .nil))))

/-- The fields of the settings. -/
def fieldsOf (s : BucketSettings) :
    Option String × Option Nat × Option StringMap × Option Json × Option String × Unit :=
  (s.versioning, s.ftt, s.tags, s.policy, s.lifecycle, ())

/-- A field with `skip_serializing_if = "Option::is_none"`. -/
def unlessNone {α : Type} (f : Form α) (o : Option α) : List Msg := (o.map f.toMsg).toList

/-- The fields that are written. -/
def presentFields (s : BucketSettings) : List Msg :=
  unlessNone Form.str s.versioning ++ (unlessNone nat s.ftt ++
    (unlessNone (assoc Form.str Form.str) s.tags ++ (unlessNone json s.policy ++
      unlessNone Form.str s.lifecycle)))

/-- Every field is there. -/
structure Complete (s : BucketSettings) : Prop where
  versioning : s.versioning.isSome
  ftt : s.ftt.isSome
  tags : s.tags.isSome
  policy : s.policy.isSome
  lifecycle : s.lifecycle.isSome

theorem presentFields_complete (h : Complete s) :
    presentFields s = settingsFields.toMsgs (fieldsOf s) := by
  obtain ⟨versioning, hversioning⟩ := isSome_iff_exists.1 h.versioning
  obtain ⟨ftt, hftt⟩ := isSome_iff_exists.1 h.ftt
  obtain ⟨tags, htags⟩ := isSome_iff_exists.1 h.tags
  obtain ⟨policy, hpolicy⟩ := isSome_iff_exists.1 h.policy
  obtain ⟨lifecycle, hlifecycle⟩ := isSome_iff_exists.1 h.lifecycle
  unfold presentFields fieldsOf
  rw [hversioning, hftt, htags, hpolicy, hlifecycle]
  rfl

theorem length_unlessNone {α : Type} (f : Form α) (o : Option α) :
    (unlessNone f o).length = if o.isSome then 1 else 0 := by
  cases o <;> rfl

/-- A skipped field leaves fewer than five. -/
theorem complete_of_length (h : (presentFields s).length = 5) : Complete s := by
  simp only [presentFields, length_append, length_unlessNone] at h
  constructor <;> by_contra hnone <;> rw [if_neg hnone] at h <;> split_ifs at h <;> omega

theorem length_of_ofMsgs {ms : List Msg} {fs}
    (h : settingsFields.ofMsgs n ms = some fs) : ms.length = 5 := by
  match ms, h with
  | [_, _, _, _, _], _ => rfl
  | [], h => cases h
  | [_], h | [_, _], h | [_, _, _], h | [_, _, _, _], h | _ :: _ :: _ :: _ :: _ :: _ :: _, h =>
    simp [settingsFields, Fields.cons, Fields.nil] at h

/-- `BucketSettings`. -/
def settings : Form BucketSettings where
  toMsg s := .arr (presentFields s)
  ofMsg
    | n + 1, .arr ms => (settingsFields.ofMsgs n ms).map fun f =>
        ⟨f.1, f.2.1, f.2.2.1, f.2.2.2.1, f.2.2.2.2.1⟩
    | _, _ => none
  Fits
    | 0, _ => False
    | n + 1, s => Complete s ∧ settingsFields.Fits n (fieldsOf s)
  ofMsg_toMsg
    | 0, _ => iff_of_false nofun id
    | n + 1, s => by
      show (settingsFields.ofMsgs n (presentFields s)).map _ = some s ↔
        Complete s ∧ settingsFields.Fits n (fieldsOf s)
      rw [← settingsFields.ofMsgs_toMsgs, Option.map_eq_some_iff]
      constructor
      · rintro ⟨fs, hfs, rfl⟩
        have hcomplete := complete_of_length (length_of_ofMsgs hfs)
        rw [← presentFields_complete hcomplete]
        exact ⟨hcomplete, hfs⟩
      · rintro ⟨hcomplete, hfs⟩
        exact ⟨fieldsOf s, presentFields_complete hcomplete ▸ hfs, rfl⟩

/-- `State`. -/
def state : Form State :=
  (record (.cons (assoc Form.str member) (.cons placement (.cons (assoc Form.str settings) .nil)))).equiv
    { toFun := fun f => ⟨f.1, f.2.1, f.2.2.1⟩
      invFun := fun s => (s.members, s.placement, s.buckets, ()) }

/-- **What a snapshot keeps** of a bucket's settings: all five fields are there, and the policy is not
null and its nesting within the decoder's limit. -/
structure Storable (levels : Nat) (s : BucketSettings) : Prop where
  complete : Complete s
  policy : ∀ p, s.policy = some p → p ≠ .null ∧ nested levels p

theorem fits_settings : settings.Fits (n + 2) s ↔ Storable (n + 1) s := by
  obtain ⟨versioning, ftt, tags, policy, lifecycle⟩ := s
  constructor
  · rintro ⟨hcomplete, -, -, -, hpolicy, -⟩
    refine ⟨hcomplete, ?_⟩
    rintro p rfl
    exact ⟨isNil_json.1 hpolicy.1, hpolicy.2⟩
  · intro h
    refine ⟨h.complete, ?_, ?_, ?_, ?_, ?_, trivial⟩
    · cases versioning with
      | none => trivial
      | some v => exact ⟨rfl, trivial⟩
    · cases ftt with
      | none => trivial
      | some n => exact ⟨rfl, trivial⟩
    · cases tags with
      | none => trivial
      | some t => exact ⟨rfl, fun _ _ => ⟨trivial, trivial⟩⟩
    · cases policy with
      | none => trivial
      | some p => exact ⟨isNil_json.2 (h.policy p rfl).1, (h.policy p rfl).2⟩
    · cases lifecycle with
      | none => trivial
      | some l => exact ⟨rfl, trivial⟩

/-- **A state survives** exactly if the settings of every bucket are storable. -/
theorem fits_state {s : State} : state.Fits (n + 4) s ↔ ∀ e ∈ s.buckets, Storable (n + 1) e.2 := by
  constructor
  · rintro ⟨-, -, hbuckets, -⟩ e he
    exact fits_settings.1 (hbuckets e he).2
  · intro h
    refine ⟨fun e _ => ⟨trivial, trivial, trivial, trivial, trivial, trivial, trivial⟩,
      ⟨trivial, trivial, fun v _ => ⟨trivial, trivial, trivial, trivial⟩, trivial⟩,
      fun e he => ⟨trivial, fits_settings.2 (h e he)⟩, trivial⟩

end Msgpack

/-! ## Both -/

/-- `bincode::deserialize` of an operation. -/
def deserializeOp (bytes : List UInt8) : Option Op := (Bincode.decodeOp bytes).map Prod.fst

theorem deserializeOp_iff {op : Op} (hsized : Bincode.Sized op) :
    deserializeOp (Bincode.encodeOp op) = some op ↔ ¬ Bincode.SetsSettings op := by
  unfold deserializeOp
  constructor
  · intro h hsets
    obtain ⟨⟨_, rest⟩, hdecode, rfl⟩ := map_eq_some_iff.1 h
    exact Bincode.decodeOp_settings hsized hsets rest hdecode
  · intro h
    have hdecode := Bincode.decodeOp_encodeOp hsized h []
    rw [append_nil] at hdecode
    rw [hdecode]
    rfl

/-- **What survives serialization**: an operation exactly if it does not set bucket settings, a state
exactly if the settings of all its buckets are storable. -/
theorem survives_iff (op : Op) (hsized : Bincode.Sized op) (s : State) (levels : Nat)
    (hlevels : 4 ≤ levels) :
    (deserializeOp (Bincode.encodeOp op) = some op ↔ ¬ Bincode.SetsSettings op) ∧
    (Msgpack.state.ofMsg levels (Msgpack.state.toMsg s) = some s ↔
      ∀ e ∈ s.buckets, Msgpack.Storable (levels - 3) e.2) := by
  refine ⟨deserializeOp_iff hsized, ?_⟩
  obtain ⟨n, rfl⟩ := Nat.exists_eq_add_of_le' hlevels
  rw [Msgpack.state.ofMsg_toMsg]
  exact Msgpack.fits_state

/-- A state with one bucket that has all settings. -/
def completeState : State :=
  ⟨[], ⟨0, "", []⟩, [("b", ⟨some "Enabled", some 1, some [], some (.object []), some ""⟩)]⟩

/-- At that state, and for the removal of a node. -/
theorem survives_iff_complete :
    (deserializeOp (Bincode.encodeOp (.removeNode "a")) = some (.removeNode "a") ↔
      ¬ Bincode.SetsSettings (.removeNode "a")) ∧
    (Msgpack.state.ofMsg 1023 (Msgpack.state.toMsg completeState) = some completeState ↔
      ∀ e ∈ completeState.buckets, Msgpack.Storable (1023 - 3) e.2) :=
  survives_iff (.removeNode "a") (show (1 : Nat) < 256 ^ 8 by decide) completeState 1023 (by decide)

/-- Settings that only hold a fault tolerance are lost in both formats. -/
theorem partial_settings_lost :
    deserializeOp (Bincode.encodeOp (.setBucketSettings "b" { BucketSettings.empty with ftt := some 2 })) =
      none ∧
    Msgpack.state.ofMsg 1023 (Msgpack.state.toMsg
      { State.default with buckets := [("b", { BucketSettings.empty with ftt := some 2 })] }) = none := by
  decide +kernel

end Abixio.Raft
