import Mathlib.Logic.Equiv.Basic

/-!
# Message trees

The values of a self-describing format such as msgpack, as trees: scalars, sequences and maps. The
decoder follows a bounded number of nested levels.

A `Form` writes the values of a type as trees and reads them back. A record is the sequence of its fields
(`Fields`, `record`), an absent option is `nil`. The law of a form is an equivalence: it reads back what
it wrote of a value exactly if the value fits the levels that are left. Each combinator computes that
condition from the conditions of its parts.
-/

namespace Abixio.Lib

/-- A message. -/
inductive Msg where
  | nil
  | bool (b : Bool)
  | int (n : Int)
  | float (bits : UInt64)
  | str (s : String)
  | arr (items : List Msg)
  | map (entries : List (Msg × Msg))

namespace Msg

variable {α β κ : Type}

/-- What a reader takes for an absent option. -/
def isNil : Msg → Bool
  | .nil => true
  | _ => false

/-- A type's messages. -/
structure Form (α : Type) where
  toMsg : α → Msg
  /-- With the levels that may still be entered. -/
  ofMsg : Nat → Msg → Option α
  Fits : Nat → α → Prop
  ofMsg_toMsg : ∀ n a, ofMsg n (toMsg a) = some a ↔ Fits n a

/-- A record's fields. -/
structure Fields (α : Type) where
  toMsgs : α → List Msg
  ofMsgs : Nat → List Msg → Option α
  Fits : Nat → α → Prop
  ofMsgs_toMsgs : ∀ n a, ofMsgs n (toMsgs a) = some a ↔ Fits n a

namespace Fields

/-- No field. -/
def nil : Fields Unit where
  toMsgs _ := []
  ofMsgs
    | _, [] => some ()
    | _, _ :: _ => none
  Fits _ _ := True
  ofMsgs_toMsgs _ _ := iff_of_true rfl trivial

/-- One more field, in front. -/
def cons (f : Form α) (fs : Fields β) : Fields (α × β) where
  toMsgs p := f.toMsg p.1 :: fs.toMsgs p.2
  ofMsgs
    | _, [] => none
    | n, m :: ms => (f.ofMsg n m).bind fun a => (fs.ofMsgs n ms).map fun b => (a, b)
  Fits n p := f.Fits n p.1 ∧ fs.Fits n p.2
  ofMsgs_toMsgs n p := by
    obtain ⟨a, b⟩ := p
    rw [← f.ofMsg_toMsg, ← fs.ofMsgs_toMsgs]
    simp only [Option.bind_eq_some_iff, Option.map_eq_some_iff, Prod.mk.injEq]
    constructor
    · rintro ⟨a', ha, b', hb, rfl, rfl⟩
      exact ⟨ha, hb⟩
    · exact fun h => ⟨a, h.1, b, h.2, rfl, rfl⟩

end Fields

namespace Form

/-- A text. -/
def str : Form String where
  toMsg s := .str s
  ofMsg
    | _, .str s => some s
    | _, _ => none
  Fits _ _ := True
  ofMsg_toMsg _ _ := iff_of_true rfl trivial

/-- A natural number. -/
def nat : Form Nat where
  toMsg n := .int n
  ofMsg
    | _, .int (.ofNat n) => some n
    | _, _ => none
  Fits _ _ := True
  ofMsg_toMsg _ _ := iff_of_true rfl trivial

/-- Another type with the same messages. -/
def equiv (f : Form α) (e : α ≃ β) : Form β where
  toMsg b := f.toMsg (e.symm b)
  ofMsg n m := (f.ofMsg n m).map e
  Fits n b := f.Fits n (e.symm b)
  ofMsg_toMsg n b := by
    rw [← f.ofMsg_toMsg, Option.map_eq_some_iff]
    constructor
    · rintro ⟨a, ha, rfl⟩
      rw [ha, e.symm_apply_apply]
    · exact fun h => ⟨_, h, e.apply_symm_apply b⟩

/-- A record. -/
def record (fs : Fields α) : Form α where
  toMsg a := .arr (fs.toMsgs a)
  ofMsg
    | n + 1, .arr ms => fs.ofMsgs n ms
    | _, _ => none
  Fits
    | 0, _ => False
    | n + 1, a => fs.Fits n a
  ofMsg_toMsg
    | 0, _ => iff_of_false nofun id
    | n + 1, a => fs.ofMsgs_toMsgs n a

/-- An option. -/
def option (f : Form α) : Form (Option α) where
  toMsg
    | none => .nil
    | some a => f.toMsg a
  ofMsg n m := if isNil m then some none else (f.ofMsg n m).map some
  Fits
    | _, none => True
    | n, some a => isNil (f.toMsg a) = false ∧ f.Fits n a
  ofMsg_toMsg
    | _, none => iff_of_true rfl trivial
    | n, some a => by
      show (if isNil (f.toMsg a) then some none else (f.ofMsg n (f.toMsg a)).map some) =
        some (some a) ↔ isNil (f.toMsg a) = false ∧ f.Fits n a
      rw [← f.ofMsg_toMsg]
      cases isNil (f.toMsg a) with
      | true => exact iff_of_false (by simp) (by simp)
      | false => simp

/-- Every item, or none of them. -/
def readAll (read : Msg → Option α) : List Msg → Option (List α)
  | [] => some []
  | m :: ms => (read m).bind fun a => (readAll read ms).map fun as => a :: as

theorem readAll_map {read : Msg → Option α} {write : α → Msg} {as : List α} :
    readAll read (as.map write) = some as ↔ ∀ a ∈ as, read (write a) = some a := by
  induction as with
  | nil => exact iff_of_true rfl nofun
  | cons a as ih =>
    rw [List.map_cons, readAll, List.forall_mem_cons, ← ih]
    simp only [Option.bind_eq_some_iff, Option.map_eq_some_iff, List.cons.injEq]
    constructor
    · rintro ⟨a', ha, as', has, rfl, rfl⟩
      exact ⟨ha, has⟩
    · exact fun h => ⟨a, h.1, as, h.2, rfl, rfl⟩

/-- A sequence. -/
def seq (f : Form α) : Form (List α) where
  toMsg as := .arr (as.map f.toMsg)
  ofMsg
    | n + 1, .arr ms => readAll (f.ofMsg n) ms
    | _, _ => none
  Fits
    | 0, _ => False
    | n + 1, as => ∀ a ∈ as, f.Fits n a
  ofMsg_toMsg
    | 0, _ => iff_of_false nofun id
    | n + 1, as => by
      show readAll (f.ofMsg n) (as.map f.toMsg) = some as ↔ ∀ a ∈ as, f.Fits n a
      rw [readAll_map]
      exact forall₂_congr fun a _ => f.ofMsg_toMsg n a

/-- Every entry, or none of them. -/
def readEntries (readKey : Msg → Option κ) (read : Msg → Option α) :
    List (Msg × Msg) → Option (List (κ × α))
  | [] => some []
  | (k, m) :: ms => (readKey k).bind fun key => (read m).bind fun a =>
      (readEntries readKey read ms).map fun as => (key, a) :: as

theorem readEntries_map {readKey : Msg → Option κ} {writeKey : κ → Msg} {read : Msg → Option α}
    {write : α → Msg} {as : List (κ × α)} :
    readEntries readKey read (as.map fun e => (writeKey e.1, write e.2)) = some as ↔
      ∀ e ∈ as, readKey (writeKey e.1) = some e.1 ∧ read (write e.2) = some e.2 := by
  induction as with
  | nil => exact iff_of_true rfl nofun
  | cons e as ih =>
    obtain ⟨k, a⟩ := e
    rw [List.map_cons, readEntries, List.forall_mem_cons, ← ih]
    simp only [Option.bind_eq_some_iff, Option.map_eq_some_iff, List.cons.injEq, Prod.mk.injEq]
    constructor
    · rintro ⟨k', hk, a', ha, as', has, ⟨rfl, rfl⟩, rfl⟩
      exact ⟨⟨hk, ha⟩, has⟩
    · exact fun h => ⟨k, h.1.1, a, h.1.2, as, h.2, ⟨rfl, rfl⟩, rfl⟩

/-- A map, as its entries. -/
def assoc (k : Form κ) (f : Form α) : Form (List (κ × α)) where
  toMsg as := .map (as.map fun e => (k.toMsg e.1, f.toMsg e.2))
  ofMsg
    | n + 1, .map ms => readEntries (k.ofMsg n) (f.ofMsg n) ms
    | _, _ => none
  Fits
    | 0, _ => False
    | n + 1, as => ∀ e ∈ as, k.Fits n e.1 ∧ f.Fits n e.2
  ofMsg_toMsg
    | 0, _ => iff_of_false nofun id
    | n + 1, as => by
      show readEntries (k.ofMsg n) (f.ofMsg n) (as.map fun e => (k.toMsg e.1, f.toMsg e.2)) = some as ↔ _
      rw [readEntries_map]
      exact forall₂_congr fun e _ => and_congr (k.ofMsg_toMsg n e.1) (f.ofMsg_toMsg n e.2)

end Form

end Msg

end Abixio.Lib
