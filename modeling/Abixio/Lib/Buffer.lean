import Mathlib.Algebra.Group.Nat.Defs
import Mathlib.Data.List.Basic

/-!
# Buffers, checked reads and little-endian numbers

A buffer is a list of cells of fixed length that is written in place, as a mapped file is
(`overwrite`, `resize`).

* A `Read` is a computation over a buffer that can stop with an error, read outside the buffer or run
  out of fuel. `slice` and `sliceFrom` are its reads, `attempt` catches the errors and not the other two.
  `Proper x` says that `x` stays in bounds and ends. It is closed under `>>=` (`Proper.bind`).
* `leBytes w n` is the little-endian encoding of `n` in `w` bytes and `leField` reads such a number at
  an offset. `leField_head` and `leField_skip` evaluate a field of a concatenation of encodings.
-/

namespace Abixio.Lib

open List

/-! ## Checked reads -/

/-- How a read can end without a result. -/
inductive Fault (ε : Type) where
  /-- Cells outside the buffer were asked for. -/
  | outOfBounds
  | outOfFuel
  /-- It returned an error. -/
  | failed (e : ε)
  deriving DecidableEq

/-- A computation that reads a buffer. -/
abbrev Read (ε α : Type) := Except (Fault ε) α

/-- The computation stays in bounds and ends. -/
def Proper {ε α : Type} (x : Read ε α) : Prop :=
  x ≠ .error .outOfBounds ∧ x ≠ .error .outOfFuel

section Read

variable {ε α β : Type} {x : Read ε α} {f : α → Read ε β}

theorem proper_ok (a : α) : Proper (.ok a : Read ε α) := by
  constructor <;> exact nofun

theorem proper_failed (e : ε) : Proper (.error (.failed e) : Read ε α) := by
  constructor <;> exact nofun

/-- **One read after another.** -/
theorem Proper.bind (hx : Proper x) (hf : ∀ a, x = .ok a → Proper (f a)) : Proper (x >>= f) := by
  cases x with
  | ok a => exact hf a rfl
  | error fault =>
    cases fault with
    | outOfBounds => exact absurd rfl hx.1
    | outOfFuel => exact absurd rfl hx.2
    | failed e => exact proper_failed e

theorem Read.ok_bind (a : α) (f : α → Read ε β) : ((.ok a : Read ε α) >>= f) = f a := rfl

theorem Read.bind_eq_ok {b : β} (h : x >>= f = .ok b) : ∃ a, x = .ok a ∧ f a = .ok b := by
  cases x with
  | ok a => exact ⟨a, rfl, h⟩
  | error fault => cases h

/-- The error as a value. -/
def Read.attempt (x : Read ε α) : Read ε (Except ε α) :=
  match x with
  | .ok a => .ok (.ok a)
  | .error (.failed e) => .ok (.error e)
  | .error .outOfBounds => .error .outOfBounds
  | .error .outOfFuel => .error .outOfFuel

end Read

/-! ## Buffers -/

section Buffer

variable {ε α : Type} {buf src : List α} {off len : Nat}

/-- Write `src` into the buffer at `off`. -/
def overwrite (off : Nat) (src buf : List α) : List α :=
  buf.take off ++ (src ++ buf.drop (off + src.length))

/-- `&buf[off..off + len]`. -/
def slice (buf : List α) (off len : Nat) : Read ε (List α) :=
  if off + len ≤ buf.length then .ok ((buf.drop off).take len) else .error .outOfBounds

/-- `&buf[off..]`. -/
def sliceFrom (buf : List α) (off : Nat) : Read ε (List α) :=
  if off ≤ buf.length then .ok (buf.drop off) else .error .outOfBounds

/-- Cut or pad to a length. -/
def resize (pad : α) (len : Nat) (buf : List α) : List α :=
  buf.take len ++ List.replicate (len - buf.length) pad

theorem slice_eq (h : off + len ≤ buf.length) :
    (slice buf off len : Read ε (List α)) = .ok ((buf.drop off).take len) := if_pos h

theorem sliceFrom_eq (h : off ≤ buf.length) :
    (sliceFrom buf off : Read ε (List α)) = .ok (buf.drop off) := if_pos h

/-- A piece of a concatenation. -/
theorem slice_piece {front piece rest : List α} (hoff : front.length = off)
    (hlen : piece.length = len) :
    (slice (front ++ (piece ++ rest)) off len : Read ε (List α)) = .ok piece := by
  rw [slice_eq (by rw [length_append, length_append]; omega), drop_left' hoff, take_left' hlen]

/-- A slice that ends in a common front. -/
theorem slice_congr {buf' : List α} {t : Nat} (h : buf'.take t = buf.take t) (hle : off + len ≤ t) :
    (slice buf' off len : Read ε (List α)) = slice buf off len := by
  have hlen := congrArg length h
  rw [length_take, length_take] at hlen
  have hcut : (buf'.drop off).take len = (buf.drop off).take len := by
    rw [take_drop, take_drop, ← Nat.min_eq_left hle, ← take_take, h, take_take]
  have hin : off + len ≤ buf'.length ↔ off + len ≤ buf.length := by omega
  unfold slice
  rw [hcut, if_congr hin rfl rfl]

theorem length_overwrite (h : off + src.length ≤ buf.length) :
    (overwrite off src buf).length = buf.length := by
  unfold overwrite
  rw [length_append, length_append, length_take, length_drop]
  omega

/-- Writing over the middle of a concatenation. -/
theorem overwrite_append {front rest : List α} (hoff : front.length = off) :
    overwrite off src (front ++ rest) = front ++ (src ++ rest.drop src.length) := by
  unfold overwrite
  rw [take_left' hoff, ← drop_drop, drop_left' hoff]

theorem length_resize (pad : α) (len : Nat) (buf : List α) : (resize pad len buf).length = len := by
  unfold resize
  rw [length_append, length_take, length_replicate]
  omega

end Buffer

/-! ## Little-endian numbers -/

/-- The `w` low bytes of `n`, the lowest first. -/
def leBytes : Nat → Nat → List UInt8
  | 0, _ => []
  | w + 1, n => UInt8.ofNat n :: leBytes w (n / 256)

/-- The number that bytes stand for. -/
def leNat : List UInt8 → Nat
  | [] => 0
  | b :: bs => b.toNat + 256 * leNat bs

/-- The number in the `w` bytes from `off` on. -/
def leField (buf : List UInt8) (off w : Nat) : Nat := leNat ((buf.drop off).take w)

theorem length_leBytes : ∀ w n : Nat, (leBytes w n).length = w
  | 0, _ => rfl
  | w + 1, n => by rw [leBytes, length_cons, length_leBytes w]

/-- **Reading back** keeps a number modulo the width. -/
theorem leNat_leBytes : ∀ w n : Nat, leNat (leBytes w n) = n % 256 ^ w
  | 0, n => by
    rw [leBytes, leNat, Nat.pow_zero, Nat.mod_one]
  | w + 1, n => by
    have hbyte : (UInt8.ofNat n).toNat = n % 256 := UInt8.toNat_ofNat
    rw [leBytes, leNat, leNat_leBytes w, hbyte, Nat.pow_succ', Nat.mod_mul]

/-- The field in front, -/
theorem leField_head (w n : Nat) (rest : List UInt8) :
    leField (leBytes w n ++ rest) 0 w = n % 256 ^ w := by
  unfold leField
  rw [drop_zero, take_left' (length_leBytes w n), leNat_leBytes]

/-- and one behind it. -/
theorem leField_skip {front : List UInt8} {v : Nat} (hfront : front.length = v) {off : Nat}
    (h : v ≤ off) (w : Nat) (rest : List UInt8) :
    leField (front ++ rest) off w = leField rest (off - v) w := by
  unfold leField
  have hoff : off = v + (off - v) := by omega
  conv_lhs => rw [hoff, ← drop_drop, drop_left' hfront]

theorem leField_leBytes_skip (v n : Nat) {off : Nat} (h : v ≤ off) (w : Nat) (rest : List UInt8) :
    leField (leBytes v n ++ rest) off w = leField rest (off - v) w :=
  leField_skip (length_leBytes v n) h w rest

end Abixio.Lib
