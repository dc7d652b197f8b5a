import GlideFS.Lib.Loops
import Mathlib.Tactic.Ring

/-! # Numbers as bytes -/

namespace GlideFS.Lib

/-- The `k` low bytes of a number, lowest first. -/
def leBytes : Nat → Nat → List UInt8
  | 0, _ => []
  | k + 1, n => UInt8.ofNat n :: leBytes k (n / 256)

def ofLeBytes : List UInt8 → Nat
  | [] => 0
  | b :: rest => b.toNat + 256 * ofLeBytes rest

@[simp] theorem length_leBytes (k n : Nat) : (leBytes k n).length = k := by
  induction k generalizing n with
  | zero => rfl
  | succ k ih => simp [leBytes, ih]

theorem ofLeBytes_leBytes_mod (k n : Nat) : ofLeBytes (leBytes k n) = n % 256 ^ k := by
  induction k generalizing n with
  | zero => simp [leBytes, ofLeBytes, Nat.mod_one]
  | succ k ih =>
    have low : (UInt8.ofNat n).toNat = n % 256 := by simp
    rw [leBytes, ofLeBytes, ih, low, pow_succ', Nat.mod_mul]

theorem ofLeBytes_leBytes {k n : Nat} (h : n < 256 ^ k) : ofLeBytes (leBytes k n) = n := by
  rw [ofLeBytes_leBytes_mod, Nat.mod_eq_of_lt h]

theorem ofLeBytes_lt (bs : List UInt8) : ofLeBytes bs < 256 ^ bs.length := by
  induction bs with
  | nil => simp [ofLeBytes]
  | cons b rest ih =>
    have byte : b.toNat < 256 := b.toNat_lt
    simp only [ofLeBytes, List.length_cons, pow_succ]
    omega

/-- The `k` low bytes of a number, highest first. -/
def beBytes (k n : Nat) : List UInt8 := (leBytes k n).reverse

@[simp] theorem length_beBytes (k n : Nat) : (beBytes k n).length = k := by
  simp [beBytes]

/-- Takes a big-endian number of `k` bytes off the front. -/
def readBe (k : Nat) (bytes : List UInt8) : Option (Nat × List UInt8) :=
  if k ≤ bytes.length then some (ofLeBytes (bytes.take k).reverse, bytes.drop k) else none

theorem readBe_beBytes {k n : Nat} (small : n < 256 ^ k) (rest : List UInt8) :
    readBe k (beBytes k n ++ rest) = some (n, rest) := by
  have size := length_beBytes k n
  rw [readBe, if_pos (by simp), List.take_left' size, List.drop_left' size, beBytes,
    List.reverse_reverse, ofLeBytes_leBytes small]

/-! ## Fields at positions of a byte string

A parser that slices its input by position panics where a slice does not lie inside it. `Holds`
says what bytes lie at a position; from it follows what the parser reads there.
-/

/-- How a parser can fail: by a panic or with an error of its own. -/
inductive Fault (ε : Type) where
  | panic
  | error (e : ε)
deriving DecidableEq

variable {ε : Type} {data part a b : List UInt8} {pos k n : ℕ}

def bytesAt (data : List UInt8) (pos k : ℕ) : Except (Fault ε) (List UInt8) :=
  if pos + k ≤ data.length then .ok ((data.drop pos).take k) else .error .panic

/-- A little-endian number of `k` bytes. -/
def leAt (data : List UInt8) (pos k : ℕ) : Except (Fault ε) ℕ :=
  (bytesAt data pos k).map ofLeBytes

/-- The bytes lie at the position. -/
def Holds (data : List UInt8) (pos : ℕ) (part : List UInt8) : Prop :=
  pos + part.length ≤ data.length ∧ (data.drop pos).take part.length = part

theorem Holds.whole (data : List UInt8) : Holds data 0 data := by
  simp [Holds]

theorem holds_append :
    Holds data pos (a ++ b) ↔ Holds data pos a ∧ Holds data (pos + a.length) b := by
  simp only [Holds, List.length_append, List.take_add, List.drop_drop]
  constructor
  · rintro ⟨inside, same⟩
    have lengths : ((data.drop pos).take a.length).length = a.length := by
      simp only [List.length_take, List.length_drop]
      omega
    obtain ⟨first, second⟩ := List.append_inj same lengths
    exact ⟨⟨by omega, first⟩, by omega, second⟩
  · rintro ⟨⟨-, first⟩, inside, second⟩
    exact ⟨by omega, by rw [first, second]⟩

theorem Holds.bytesAt (holds : Holds data pos part) (len : part.length = k) :
    (bytesAt data pos k : Except (Fault ε) _) = .ok part := by
  obtain ⟨inside, same⟩ := holds
  rw [len] at inside same
  rw [Lib.bytesAt, if_pos inside, same]

theorem Holds.leAt (holds : Holds data pos (leBytes k n)) (small : n < 256 ^ k) :
    (leAt data pos k : Except (Fault ε) _) = .ok n := by
  rw [Lib.leAt, holds.bytesAt (length_leBytes k n), Except.map, ofLeBytes_leBytes small]

theorem bytesAt_ends {E : Fault ε → Prop} (inside : pos + k ≤ data.length) :
    Ends E (fun part => part.length = k) (bytesAt data pos k) := by
  rw [bytesAt, if_pos inside]
  simp only [Ends, List.length_take, List.length_drop]
  omega

theorem leAt_ends {E : Fault ε → Prop} (inside : pos + k ≤ data.length) :
    Ends E (fun n => n < 256 ^ k) (leAt data pos k) :=
  (bytesAt_ends inside).map fun part len => len ▸ ofLeBytes_lt part

end GlideFS.Lib
