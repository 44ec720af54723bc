import Abixio.Lib.Buffer

/-!
# Codecs

A codec writes a value as bytes and reads it back from the front of a stream. Its law is a field: what it
writes of a value that fits, it reads back, whatever stands behind it. Codecs of records are built from
those of their fields (`pair`, `imap`), those of sequences from their items (`vec`), so the law is proved
once for each combinator.

The formats are those of bincode with fixed-width integers: a number is little-endian, a text or a
sequence follows its length as 64 bits.
-/

namespace Abixio.Lib

/-- Reads a value from the front of the bytes. -/
abbrev Decoder (α : Type) := List UInt8 → Option (α × List UInt8)

/-- **A codec.** -/
structure Codec (α : Type) where
  encode : α → List UInt8
  decode : Decoder α
  /-- The values the format has room for. -/
  Fits : α → Prop
  decode_encode : ∀ a, Fits a → ∀ rest, decode (encode a ++ rest) = some (a, rest)

namespace Codec

variable {α β : Type}

/-- A number in `w` bytes. -/
def uint (w : Nat) : Codec Nat where
  encode n := leBytes w n
  decode bs := if w ≤ bs.length then some (leNat (bs.take w), bs.drop w) else none
  Fits n := n < 256 ^ w
  decode_encode n h rest := by
    have hlen := length_leBytes w n
    rw [if_pos (by rw [List.length_append]; omega), List.take_left' hlen, List.drop_left' hlen,
      leNat_leBytes, Nat.mod_eq_of_lt h]

/-- One value behind the other. -/
def pair (c : Codec α) (d : Codec β) : Codec (α × β) where
  encode p := c.encode p.1 ++ d.encode p.2
  decode bs := (c.decode bs).bind fun a => (d.decode a.2).map fun b => ((a.1, b.1), b.2)
  Fits p := c.Fits p.1 ∧ d.Fits p.2
  decode_encode p h rest := by
    rw [List.append_assoc, c.decode_encode p.1 h.1, Option.bind_some, d.decode_encode p.2 h.2]
    rfl

/-- The same bytes for another type. -/
def imap (c : Codec α) (f : α → β) (g : β → α) (hfg : ∀ b, f (g b) = b) : Codec β where
  encode b := c.encode (g b)
  decode bs := (c.decode bs).map fun a => (f a.1, a.2)
  Fits b := c.Fits (g b)
  decode_encode b h rest := by
    rw [c.decode_encode _ h, Option.map_some, hfg]

/-- `n` values. -/
def times (d : Decoder α) : Nat → Decoder (List α)
  | 0, bs => some ([], bs)
  | n + 1, bs => (d bs).bind fun a => (times d n a.2).map fun as => (a.1 :: as.1, as.2)

theorem times_encode (c : Codec α) {as : List α} (h : ∀ a ∈ as, c.Fits a) (rest : List UInt8) :
    times c.decode as.length (as.flatMap c.encode ++ rest) = some (as, rest) := by
  induction as with
  | nil => rfl
  | cons a as ih =>
    rw [List.length_cons, times, List.flatMap_cons, List.append_assoc,
      c.decode_encode a (h a List.mem_cons_self), Option.bind_some,
      ih fun b hb => h b (List.mem_cons_of_mem _ hb)]
    rfl

/-- A sequence behind its length. -/
def vec (c : Codec α) : Codec (List α) where
  encode as := (uint 8).encode as.length ++ as.flatMap c.encode
  decode bs := ((uint 8).decode bs).bind fun n => times c.decode n.1 n.2
  Fits as := (uint 8).Fits as.length ∧ ∀ a ∈ as, c.Fits a
  decode_encode as h rest := by
    rw [List.append_assoc, (uint 8).decode_encode _ h.1, Option.bind_some, times_encode c h.2]

/-- A text behind the length of its UTF-8. -/
def str : Codec String where
  encode s := (uint 8).encode s.toUTF8.size ++ s.toUTF8.data.toList
  decode bs := ((uint 8).decode bs).bind fun n =>
    if n.1 ≤ n.2.length then
      (String.fromUTF8? ⟨(n.2.take n.1).toArray⟩).map fun s => (s, n.2.drop n.1)
    else none
  Fits s := (uint 8).Fits s.toUTF8.size
  decode_encode s h rest := by
    have hlen : s.toUTF8.data.toList.length = s.toUTF8.size := rfl
    have hread : String.fromUTF8? s.toUTF8 = some s := dif_pos s.isValidUTF8
    rw [List.append_assoc, (uint 8).decode_encode _ h, Option.bind_some,
      if_pos (by rw [List.length_append]; omega), List.take_left' hlen, List.drop_left' hlen,
      Array.toArray_toList]
    rw [hread]
    rfl

/-- A 64-bit word. -/
def u64 : Codec UInt64 where
  encode n := (uint 8).encode n.toNat
  decode bs := ((uint 8).decode bs).map fun n => (UInt64.ofNat n.1, n.2)
  Fits _ := True
  decode_encode n _ rest := by
    rw [(uint 8).decode_encode _ n.toNat_lt, Option.map_some, UInt64.ofNat_toNat]

end Codec

end Abixio.Lib
