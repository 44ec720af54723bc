import Abixio.Raft.LogStore

/-!
# Rejected appends and torn tails of the raft log

`append` of `src/raft/storage/log.rs:105-134` writes one entry after the other, and `open` scans what is in
the file. This module follows what a call that stops in the middle leaves: an append that rejects an entry,
and an append that a crash cut short.

Results:
* `rejected_iff`: a rejected append leaves the log as it was exactly if its first entry was the one
  rejected. The entries before a rejected one are in the file and in the index, and `file_len` is not
  advanced over them, so the next append gets the offset of a record that is not its own.
* `torn_iff`: a log with a torn record behind its entries behaves as the log without it exactly if no byte
  of the record was written. A torn header is not cut off, so the next record is written behind it and
  looked up at its start. A torn payload is skipped by a seek, so its entry is in the index.
-/

namespace Abixio.Raft

open List

open Lib (leBytes leNat leField)

variable {torn : Bytes}

namespace LogStore

variable {m es : List LogEntry} {s : LogStore} {e t x : LogEntry}

/-! ## Rejected appends -/

/-- `append` stops at this entry. -/
def Rejects (prev : Nat) (e : LogEntry) : Prop :=
  (prev ≠ 0 ∧ e.index.toNat ≤ prev) ∨ 2 ^ 32 - 1 < e.opBytes.length

instance (prev : Nat) (e : LogEntry) : Decidable (Rejects prev e) := inferInstanceAs (Decidable (_ ∨ _))

/-- The entry that `append` rejects is the first one. -/
def RejectsFirst (es : List LogEntry) (s : LogStore) : Prop :=
  ∃ e ∈ es.head?, Rejects (s.lastLogIndex.getD 0) e

/-- As if a call on a log of `m` had not happened: `s` is the store before it and `s'` the one after. -/
structure Unchanged (m : List LogEntry) (s s' : LogStore) : Prop where
  queries : ∀ limit q, s'.answer limit q = s.answer limit q
  reopen : ∀ limit q, (LogStore.open s'.file).answer limit q = (LogStore.open s.file).answer limit q
  append : ∀ es, Increasing (m ++ es) → Sized es →
    (s'.append es).1 = .ok () ∧ ∀ e ∈ es, (s'.append es).2.read e.index = .ok e

theorem appendFrom_rejects {prev : Nat} (h : Rejects prev e) (es : List LogEntry) (offset : Nat)
    (s : LogStore) : ∃ err, appendFrom (e :: es) prev offset s = (.error err, s) := by
  rw [appendFrom]
  by_cases hmono : prev ≠ 0 ∧ e.index.toNat ≤ prev
  · rw [if_pos hmono]
    exact ⟨_, rfl⟩
  · rw [if_neg hmono, if_pos (h.resolve_left hmono)]
    exact ⟨_, rfl⟩

theorem appendFrom_takes {prev offset : Nat} (h : ¬ Rejects prev e) :
    appendFrom (e :: es) prev offset s =
      appendFrom es e.index.toNat (offset + (headerLen + e.opBytes.length)) { s with
        file := s.file ++ record e
        index := Lib.SortedMap.insert e.index.toNat (offset, e.term) s.index } := by
  rw [appendFrom, if_neg fun hmono => h (Or.inl hmono), if_neg fun hsize => h (Or.inr hsize)]

/-- The file grows, and a call that fails does not advance `file_len`. -/
theorem appendFrom_error (es : List LogEntry) :
    ∀ {prev offset : Nat} {s : LogStore} {err : LogError}, (appendFrom es prev offset s).1 = .error err →
      ∃ more, (appendFrom es prev offset s).2.file = s.file ++ more ∧
        (appendFrom es prev offset s).2.fileLen = s.fileLen := by
  induction es with
  | nil => exact fun h => by cases h
  | cons e es ih =>
    intro prev offset s err h
    by_cases hrej : Rejects prev e
    · obtain ⟨err', hstop⟩ := appendFrom_rejects hrej es offset s
      rw [hstop]
      exact ⟨[], (append_nil _).symm, rfl⟩
    · rw [appendFrom_takes hrej] at h ⊢
      obtain ⟨more, hfile, hlen⟩ := ih h
      exact ⟨record e ++ more, by rw [hfile, append_assoc], hlen⟩

/-- An entry that the log can take next, and that is not the one taken. -/
def rival (t : LogEntry) : LogEntry := ⟨if t.index = 0 then 1 else t.index, t.term + 1, []⟩

theorem term_rival (t : LogEntry) : (rival t).term ≠ t.term := by
  intro h
  have h' := congrArg UInt64.toNat h
  have hlt := t.term.toNat_lt
  simp only [rival, UInt64.toNat_add, UInt64.reduceToNat] at h'
  omega

/-- A read at the offset of another entry's record. -/
theorem read_ne_of_header {offset : Nat} {rest : Bytes}
    (hlookup : Lib.SortedMap.lookup x.index.toNat s.index = some (offset, x.term))
    (hfile : s.file.drop offset = header t ++ rest) (hsize : t.opBytes.length < 2 ^ 32)
    (hterm : x.term ≠ t.term) : s.read x.index ≠ .ok x := by
  obtain ⟨-, hfield, -⟩ := leField_header hsize []
  rw [append_nil] at hfield
  unfold read
  rw [hlookup]
  dsimp only
  rw [hfile, take_left' (length_header t)]
  intro hread
  split_ifs at hread
  have hx := congrArg LogEntry.term (Except.ok.inj hread)
  rw [hfield, UInt64.ofNat_toNat] at hx
  exact hterm hx.symm

/-- The rival of the first entry goes on behind the log. -/
theorem increasing_rival (h : Holds m s) (ht : ¬ Rejects (s.lastLogIndex.getD 0) t) :
    Increasing (m ++ [rival t]) := by
  refine pairwise_append.mpr ⟨h.increasing, pairwise_singleton _ _, fun a ha b hb => ?_⟩
  rw [mem_singleton.mp hb]
  have hle := le_lastLogIndex h ha
  have hmono : ¬ (s.lastLogIndex.getD 0 ≠ 0 ∧ t.index.toNat ≤ s.lastLogIndex.getD 0) :=
    fun hmono => ht (Or.inl hmono)
  show a.index.toNat < (if t.index = 0 then (1 : UInt64) else t.index).toNat
  by_cases hzero : t.index = 0
  · rw [if_pos hzero]
    rw [hzero] at hmono
    have hone : (1 : UInt64).toNat = 1 := rfl
    have hnull : (0 : UInt64).toNat = 0 := rfl
    omega
  · rw [if_neg hzero]
    have hpos : t.index.toNat ≠ 0 := fun h0 => hzero (UInt64.toNat_inj.mp h0)
    omega

/-- **A rejected append leaves the log as it was** exactly if it rejects its first entry. -/
theorem rejected_iff (h : Holds m s) {err : LogError} (herr : (s.append es).1 = .error err) :
    Unchanged m s (s.append es).2 ↔ RejectsFirst es s := by
  cases es with
  | nil => cases herr
  | cons t es =>
    constructor
    · intro hsame
      refine ⟨t, rfl, ?_⟩
      by_contra ht
      -- `t` was taken, and its record is where the next entry is looked up
      unfold append at herr hsame
      rw [appendFrom_takes ht] at herr hsame
      obtain ⟨more, hfile, hlen⟩ := appendFrom_error es herr
      set s' := (appendFrom es _ _ _).2
      have hsize : t.opBytes.length < 2 ^ 32 := by
        have : ¬ 2 ^ 32 - 1 < t.opBytes.length := fun hbig => ht (Or.inr hbig)
        omega
      have hx : ¬ Rejects (s'.lastLogIndex.getD 0) (rival t) := by
        intro hrej
        obtain ⟨err', hstop⟩ := appendFrom_rejects hrej [] s'.fileLen s'
        have hok := (hsame.append [rival t] (increasing_rival h ht) (by simp [Sized, rival])).1
        unfold append at hok
        rw [hstop] at hok
        cases hok
      have hread := (hsame.append [rival t] (increasing_rival h ht) (by simp [Sized, rival])).2
        (rival t) (mem_singleton_self _)
      have hdrop : (s'.file ++ record (rival t)).drop s'.fileLen =
          header t ++ (t.opBytes ++ (more ++ record (rival t))) := by
        rw [hfile, hlen, h.fileLen, h.file]
        simp only [append_assoc]
        rw [drop_left' rfl, record_eq, append_assoc]
      unfold append at hread
      rw [appendFrom_takes hx, appendFrom] at hread
      exact read_ne_of_header (Lib.SortedMap.lookup_insert_self _ _ _) hdrop hsize (term_rival t) hread
    · rintro ⟨e, he, hrej⟩
      obtain rfl : t = e := Option.some.inj he
      obtain ⟨err', hstop⟩ := appendFrom_rejects hrej es s.fileLen s
      unfold append
      rw [hstop]
      refine ⟨fun _ q => rfl, fun _ q => rfl, fun es' hinc hsized => ?_⟩
      obtain ⟨hok, hholds⟩ := holds_append h hinc hsized
      exact ⟨hok, fun e he => read_of_mem hholds (mem_append_right _ he)⟩

/-- The entry 3, and a call that rejects its first entry. -/
theorem rejected_iff_repeated :
    ((LogStore.open (logBytes [⟨3, 1, [7]⟩])).append [⟨3, 1, [8]⟩, ⟨4, 1, []⟩]).1 =
        .error (.nonMonotonic 3 3) ∧
      Unchanged [⟨3, 1, [7]⟩] (LogStore.open (logBytes [⟨3, 1, [7]⟩]))
        ((LogStore.open (logBytes [⟨3, 1, [7]⟩])).append [⟨3, 1, [8]⟩, ⟨4, 1, []⟩]).2 := by
  have hholds : Holds [⟨3, 1, [7]⟩] (LogStore.open (logBytes [⟨3, 1, [7]⟩])) :=
    holds_open (pairwise_singleton _ _) (by decide)
  have herr : ((LogStore.open (logBytes [⟨3, 1, [7]⟩])).append [⟨3, 1, [8]⟩, ⟨4, 1, []⟩]).1 =
      .error (.nonMonotonic 3 3) := by decide +kernel
  exact ⟨herr, (rejected_iff hholds herr).mpr ⟨_, rfl, by decide +kernel⟩⟩

/-- The entry 3 is taken before the index 2 is rejected. It stays, and the entry 4 that follows is not
found. -/
theorem rejected_append_visible :
    ((LogStore.open []).append [⟨3, 1, [7]⟩, ⟨2, 1, [8]⟩]).1 = .error (.nonMonotonic 3 2) ∧
      ((LogStore.open []).append [⟨3, 1, [7]⟩, ⟨2, 1, [8]⟩]).2.lastLogIndex = some 3 ∧
      (((LogStore.open []).append [⟨3, 1, [7]⟩, ⟨2, 1, [8]⟩]).2.append [⟨4, 1, [9]⟩]).1 = .ok () ∧
      (((LogStore.open []).append [⟨3, 1, [7]⟩, ⟨2, 1, [8]⟩]).2.append [⟨4, 1, [9]⟩]).2.read 4 =
        .error (.corruption "index mismatch at offset 0: wanted 4, got 3") := by
  decide +kernel

/-! ## Torn tails -/

/-- An operation of a log that goes on: an append or a reopen. -/
def Later : LogOp → Prop
  | .append _ | .reopen => True
  | .truncateAfter _ | .purgeBefore _ => False

/-- The results of a sequence of operations, -/
def results : List LogOp → LogStore → List (Except LogError Unit)
  | [], _ => []
  | op :: ops, s => (s.step op).1 :: results ops (s.step op).2

/-- and the store after it. -/
def after (ops : List LogOp) (s : LogStore) : LogStore := ops.foldl (fun s op => (s.step op).2) s

/-- The store behaves as one that only ever held `m`. -/
structure BehavesAs (m : List LogEntry) (s : LogStore) : Prop where
  readable : ∀ e, s.read e.index = .ok e ↔ e ∈ m
  later : ∀ ops, (∀ op ∈ ops, Later op) → results ops s = results ops (LogStore.open (logBytes m)) ∧
      ∀ limit q, (after ops s).answer limit q = (after ops (LogStore.open (logBytes m))).answer limit q

/-- The lowest byte of a field is the byte at its offset. -/
theorem leField_mod {front rest : Bytes} {b : UInt8} {off n w : Nat} (hoff : front.length = off)
    (hn : off < n) (hw : 0 < w) : leField ((front ++ b :: rest).take n) off w % 256 = b.toNat := by
  obtain ⟨w, rfl⟩ : ∃ k, w = k + 1 := ⟨w - 1, by omega⟩
  obtain ⟨n, rfl⟩ : ∃ k, n = off + (k + 1) := ⟨n - off - 1, by omega⟩
  have hb := b.toNat_lt
  unfold leField
  rw [← hoff, take_length_add_append, take_succ_cons, drop_left' rfl, take_succ_cons, leNat]
  omega

/-- What a read that succeeds found in the header. -/
theorem fields_of_read {i : UInt64} {offset : Nat} {term : UInt64}
    (hlookup : Lib.SortedMap.lookup i.toNat s.index = some (offset, term)) (hread : s.read i = .ok x) :
    UInt64.ofNat (leField ((s.file.drop offset).take headerLen) 8 8) = x.term ∧
      leField ((s.file.drop offset).take headerLen) 16 4 = x.opBytes.length := by
  unfold read at hread
  rw [hlookup] at hread
  dsimp only at hread
  split_ifs at hread
  cases hread
  refine ⟨rfl, ?_⟩
  rw [length_take, length_drop]
  omega

/-- A torn header ends the scan. -/
theorem open_short (hinc : Increasing m) (hsized : Sized m) (hshort : torn.length < headerLen) :
    LogStore.open (logBytes m ++ torn) = ⟨logBytes m ++ torn, offsets 0 m, (logBytes m).length⟩ := by
  have hscan := (rebuild_file hinc hsized torn).trans (rebuildFrom_end hshort)
  unfold LogStore.open
  rw [hscan]

/-- A torn payload does not. -/
theorem entryCount_open_long {rest : Bytes} (hinc : Increasing (m ++ [e])) (hsized : Sized (m ++ [e]))
    (hrest : rest.length < e.opBytes.length) :
    (LogStore.open (logBytes m ++ (header e ++ rest))).entryCount = m.length + 1 := by
  obtain ⟨hm, -, hcross⟩ := pairwise_append.mp hinc
  have hsize := hsized e (mem_append_right _ (mem_singleton_self e))
  obtain ⟨hindex, hterm, hlen⟩ := leField_header hsize rest
  have hkeys : ∀ k ∈ offsets 0 m, k.1 < e.index.toNat := by
    intro k hk
    obtain ⟨e', he', hkey⟩ := mem_offsets hk
    rw [← hkey]
    exact hcross e' he' e (mem_singleton_self e)
  have hlength := length_header e
  obtain ⟨fuel, hfuel⟩ : ∃ fuel, (logBytes m ++ (header e ++ rest)).length - m.length = fuel + 1 := by
    have := length_le_logBytes m
    refine ⟨(logBytes m ++ (header e ++ rest)).length - m.length - 1, ?_⟩
    rw [length_append, length_append, hlength]
    unfold headerLen
    omega
  have hdrop : ((header e ++ rest).drop (headerLen + e.opBytes.length)).length < headerLen := by
    rw [length_drop, length_append, hlength]
    unfold headerLen
    omega
  have hscan := rebuild_file hm (fun e' he' => hsized e' (mem_append_left _ he')) (header e ++ rest)
  rw [hfuel, rebuildFrom, if_neg (by rw [length_append, hlength]; omega)] at hscan
  simp only [hindex, hterm, hlen] at hscan
  replace hscan := hscan.trans (rebuildFrom_end hdrop)
  unfold entryCount LogStore.open
  rw [hscan, Lib.SortedMap.insert_of_gt hkeys]
  rw [length_append, length_offsets]
  rfl

/-- The entry that is appended after the restart, with one of two payloads. -/
def retry (e : LogEntry) (payload : Bytes) : LogEntry := ⟨e.index, e.term + 1, payload⟩

theorem increasing_retry {payload : Bytes} (hinc : Increasing (m ++ [e])) :
    Increasing (m ++ [retry e payload]) := by
  obtain ⟨hm, -, hcross⟩ := pairwise_append.mp hinc
  refine pairwise_append.mpr ⟨hm, pairwise_singleton _ _, fun a ha b hb => ?_⟩
  rw [mem_singleton.mp hb]
  exact hcross a ha e (mem_singleton_self e)

variable (h : BehavesAs m (LogStore.open (logBytes m ++ torn))) (hinc : Increasing (m ++ [e]))
  (hsized : Sized m)

include h hinc hsized in
/-- A retry behind a torn header is looked up at the start of the torn header. -/
theorem fields_of_behavesAs (payload : Bytes) (hshort : torn.length < headerLen)
    (hpayload : payload.length < 2 ^ 32) :
    UInt64.ofNat (leField ((torn ++ record (retry e payload)).take headerLen) 8 8) = e.term + 1 ∧
      leField ((torn ++ record (retry e payload)).take headerLen) 16 4 = payload.length := by
  have hm := (pairwise_append.mp hinc).1
  have hxinc : Increasing (m ++ [retry e payload]) := increasing_retry hinc
  have hxsized : Sized [retry e payload] := by
    intro e' he'
    rw [mem_singleton.mp he']
    exact hpayload
  have hquery := (h.later [.append [retry e payload]] (fun op hop => by
    rw [mem_singleton.mp hop]
    trivial)).2 0 (.read e.index)
  -- on the log of `m` the retry is read back
  have hclean := holds_append (holds_open hm hsized) hxinc hxsized
  have hgood : ((LogStore.open (logBytes m)).append [retry e payload]).2.read e.index =
      .ok (retry e payload) :=
    read_of_mem hclean.2 (mem_append_right _ (mem_singleton_self (retry e payload)))
  have hread : ((LogStore.open (logBytes m ++ torn)).append [retry e payload]).2.read e.index =
      .ok (retry e payload) := by
    have hsame : some (Answer.entry (((LogStore.open (logBytes m ++ torn)).append
        [retry e payload]).2.read e.index)) = some (Answer.entry
        (((LogStore.open (logBytes m)).append [retry e payload]).2.read e.index)) := hquery
    rw [hgood] at hsame
    exact Answer.entry.inj (Option.some.inj hsame)
  have htorn := open_short hm hsized hshort
  have happend : (LogStore.open (logBytes m ++ torn)).append [retry e payload] = (.ok (),
      ⟨logBytes m ++ torn ++ logBytes [retry e payload],
        offsets 0 m ++ offsets (logBytes m).length [retry e payload],
        (logBytes m).length + (logBytes [retry e payload]).length⟩) := by
    rw [append_eq (by rw [htorn]) hxinc hxsized, htorn]
  rw [happend] at hread
  have hlookup : Lib.SortedMap.lookup e.index.toNat
      (offsets 0 m ++ offsets (logBytes m).length [retry e payload]) =
      some ((logBytes m).length, (retry e payload).term) := by
    have hplace : Lib.SortedMap.lookup (retry e payload).index.toNat
        (offsets 0 (m ++ [retry e payload])) = some ((logBytes m).length, (retry e payload).term) :=
      lookup_offsets hxinc
    rwa [offsets_append, Nat.zero_add] at hplace
  have hfields := fields_of_read hlookup hread
  have hone : logBytes [retry e payload] = record (retry e payload) := by
    exact append_nil _
  rw [append_assoc, drop_left' rfl, hone] at hfields
  exact hfields

include h hinc hsized in
/-- A tear behind the first byte of the term: that byte is read as one of the retry's term. -/
theorem torn_term (htorn : torn <+: record e) (hlarge : 8 < torn.length) (hshort : torn.length < headerLen) :
    False := by
  have hfields := (fields_of_behavesAs h hinc hsized [] hshort (by decide)).1
  have hfront : leBytes 8 e.index.toNat ++ [UInt8.ofNat e.term.toNat] <+: record e := by
    refine ⟨leBytes 7 (e.term.toNat / 256) ++ (leBytes 4 e.opBytes.length ++ e.opBytes), ?_⟩
    rfl
  obtain ⟨rest, rfl⟩ : leBytes 8 e.index.toNat ++ [UInt8.ofNat e.term.toNat] <+: torn :=
    prefix_of_prefix_length_le hfront htorn (by
      exact hlarge)
  have hbyte : leField ((leBytes 8 e.index.toNat ++ UInt8.ofNat e.term.toNat ::
      (rest ++ record (retry e []))).take headerLen) 8 8 % 256 = (UInt8.ofNat e.term.toNat).toNat :=
    leField_mod (Lib.length_leBytes 8 e.index.toNat) (by decide) (by decide)
  have hassoc : leBytes 8 e.index.toNat ++ [UInt8.ofNat e.term.toNat] ++ rest ++ record (retry e []) =
      leBytes 8 e.index.toNat ++ UInt8.ofNat e.term.toNat :: (rest ++ record (retry e [])) := by
    simp only [append_assoc, cons_append, nil_append]
  rw [hassoc] at hfields
  have hvalue := congrArg UInt64.toNat hfields
  simp only [UInt64.toNat_ofNat', UInt64.toNat_add, UInt64.reduceToNat] at hvalue
  simp only [UInt8.toNat_ofNat'] at hbyte
  omega

include h hinc hsized in
/-- A tear in the index: the low byte of the length is read from the retry's term, whatever the length
is. -/
theorem torn_index (hpos : 0 < torn.length) (hsmall : torn.length ≤ 8) : False := by
  have hshort : torn.length < headerLen := Nat.lt_of_le_of_lt hsmall (by decide)
  have hlen : (leBytes 8 (e.term + 1).toNat).length = 8 := Lib.length_leBytes _ _
  obtain ⟨b, back, hback⟩ : ∃ b back, (leBytes 8 (e.term + 1).toNat).drop (8 - torn.length) = b :: back := by
    refine exists_cons_of_ne_nil fun hnil => ?_
    rw [drop_eq_nil_iff] at hnil
    omega
  have hsplit : leBytes 8 (e.term + 1).toNat =
      (leBytes 8 (e.term + 1).toNat).take (8 - torn.length) ++ b :: back := by
    rw [← hback, take_append_drop]
  have hbyte : ∀ payload : Bytes, payload.length < 2 ^ 32 → payload.length % 256 = b.toNat := by
    intro payload hpayload
    have hfields := (fields_of_behavesAs h hinc hsized payload hshort hpayload).2
    have hfront : (torn ++ (leBytes 8 e.index.toNat ++
        (leBytes 8 (e.term + 1).toNat).take (8 - torn.length))).length = 16 := by
      rw [length_append, length_append, Lib.length_leBytes, length_take, hlen]
      omega
    have hbytes : torn ++ record (retry e payload) = (torn ++ (leBytes 8 e.index.toNat ++
        (leBytes 8 (e.term + 1).toNat).take (8 - torn.length))) ++
          b :: (back ++ (leBytes 4 payload.length ++ payload)) := by
      show torn ++ (leBytes 8 e.index.toNat ++ (leBytes 8 (e.term + 1).toNat ++
        (leBytes 4 payload.length ++ payload))) = _
      conv_lhs => rw [hsplit]
      simp only [append_assoc, cons_append]
    rw [← hfields, hbytes]
    exact leField_mod hfront (by decide) (by decide)
  have hzero := hbyte [] (by decide)
  have hone := hbyte [0] (by decide)
  simp only [length_nil, length_singleton] at hzero hone
  omega

/-- **A torn tail** is harmless exactly if no byte of the torn record was written. -/
theorem torn_iff {torn : Bytes} (hinc : Increasing (m ++ [e])) (hsized : Sized (m ++ [e]))
    (htorn : torn <+: record e) (hstrict : torn.length < (record e).length) :
    BehavesAs m (LogStore.open (logBytes m ++ torn)) ↔ torn = [] := by
  have hm := (pairwise_append.mp hinc).1
  have hmsized : Sized m := fun e' he' => hsized e' (mem_append_left _ he')
  constructor
  · intro h
    by_contra hne
    have hpos : 0 < torn.length := length_pos_iff.mpr hne
    by_cases hlong : headerLen ≤ torn.length
    · -- the payload is torn: the entry is counted
      obtain ⟨rest, rfl⟩ : header e <+: torn := by
        rw [record_eq] at htorn
        exact prefix_of_prefix_length_le (prefix_append _ _) htorn
          (by rw [length_header]; exact hlong)
      rw [length_record, length_append, length_header] at hstrict
      have hcount : (LogStore.open (logBytes m ++ (header e ++ rest))).entryCount =
          (LogStore.open (logBytes m)).entryCount := by
        have hsame := (h.later [] fun op hop => by cases hop).2 0 .entryCount
        exact Answer.count.inj (Option.some.inj hsame)
      rw [entryCount_open_long hinc hsized (by omega), entryCount_eq (holds_open hm hmsized)] at hcount
      omega
    have hshort : torn.length < headerLen := Nat.not_le.mp hlong
    by_cases hlarge : 8 < torn.length
    · exact torn_term h hinc hmsized htorn hlarge hshort
    · exact torn_index h hinc hmsized hpos (Nat.not_lt.mp hlarge)
  · rintro rfl
    rw [append_nil]
    have hholds := holds_open hm hmsized
    refine ⟨fun e' => ⟨fun hread => ?_, read_of_mem hholds⟩, fun ops _ => ⟨rfl, fun _ q => rfl⟩⟩
    by_cases hstored : ∃ e'' ∈ m, e''.index = e'.index
    · obtain ⟨e'', he'', hindex⟩ := hstored
      rw [← hindex, read_of_mem hholds he''] at hread
      rwa [← Except.ok.inj hread]
    · simp [read_of_absent hholds fun e'' he'' hindex => hstored ⟨e'', he'', hindex⟩] at hread

/-- A log of one entry after a crash that left `k` bytes of a second one. -/
def tornLog (k : Nat) : LogStore :=
  LogStore.open (logBytes [⟨1, 1, [7]⟩] ++ (record ⟨2, 1, [8, 9]⟩).take k)

/-- A crash before the first byte, and one after five bytes. -/
theorem torn_iff_empty :
    BehavesAs [⟨1, 1, [7]⟩] (tornLog 0) ∧ ¬ BehavesAs [⟨1, 1, [7]⟩] (tornLog 5) := by
  have hinc : Increasing ([⟨1, 1, [7]⟩] ++ [⟨2, 1, [8, 9]⟩]) :=
    pairwise_pair.mpr (by decide)
  refine ⟨(torn_iff hinc (by decide) (List.take_prefix 0 _) (by decide +kernel)).mpr rfl, fun h => ?_⟩
  have htorn := (torn_iff hinc (by decide) (List.take_prefix 5 _) (by decide +kernel)).mp h
  exact absurd htorn (by decide +kernel)

/-- Five bytes of a header: the entry 2 appended after the restart is not found. A header and a byte of two:
the entry 2 is counted, and not taken again. -/
theorem torn_tail_misread :
    ((tornLog 5).append [⟨2, 1, [8, 9]⟩]).1 = .ok () ∧
      ((tornLog 5).append [⟨2, 1, [8, 9]⟩]).2.read 2 ≠ .ok ⟨2, 1, [8, 9]⟩ ∧
      (tornLog 21).entryCount = 2 ∧
      ((tornLog 21).append [⟨2, 1, [8, 9]⟩]).1 = .error (.nonMonotonic 2 2) := by
  decide +kernel

end LogStore

end Abixio.Raft
