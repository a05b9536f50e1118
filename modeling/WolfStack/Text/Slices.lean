import Mathlib.Data.List.Infix
import Mathlib.Algebra.GroupWithZero.Nat

/-! Slices of texts by bytes. A cut inside a character is no cut. -/

namespace Text

/-- `str::len`. -/
def byteLen (chars : List Char) : Nat := (chars.map Char.utf8Size).sum

/-- `&s[..n]`, which panics where the cut is inside a character. -/
def takeBytes : Nat → List Char → Option (List Char)
  | 0, _ => some []
  | _ + 1, [] => none
  | n + 1, c :: rest => if c.utf8Size ≤ n + 1 then (takeBytes (n + 1 - c.utf8Size) rest).map (c :: ·) else none

def Boundary (n : Nat) (chars : List Char) : Prop := ∃ front, front <+: chars ∧ byteLen front = n

theorem takeBytes_isSome_iff (n : Nat) (chars : List Char) : (takeBytes n chars).isSome = true ↔ Boundary n chars := by
  induction chars generalizing n with
  | nil =>
    cases n with
    | zero => exact iff_of_true rfl ⟨[], List.nil_prefix, rfl⟩
    | succ n =>
      refine iff_of_false Bool.false_ne_true ?_
      rintro ⟨front, inside, length⟩
      rw [List.prefix_nil.mp inside] at length
      cases length
  | cons c rest ih =>
    cases n with
    | zero => exact iff_of_true rfl ⟨[], List.nil_prefix, rfl⟩
    | succ n =>
      rw [takeBytes]
      constructor
      · split
        next fits =>
          rw [Option.isSome_map, ih]
          rintro ⟨front, inside, length⟩
          refine ⟨c :: front, List.cons_prefix_cons.mpr ⟨rfl, inside⟩, ?_⟩
          rw [byteLen, List.map_cons, List.sum_cons, ← byteLen, length]
          omega
        next => exact fun impossible => absurd impossible Bool.false_ne_true
      · rintro ⟨front, inside, length⟩
        cases front with
        | nil => cases length
        | cons d front =>
          obtain ⟨rfl, later⟩ := List.cons_prefix_cons.mp inside
          rw [byteLen, List.map_cons, List.sum_cons, ← byteLen] at length
          rw [if_pos (by omega), Option.isSome_map, ih]
          exact ⟨front, later, by omega⟩

theorem takeBytes_front {n : Nat} {chars front : List Char} (cut : takeBytes n chars = some front) : front <+: chars ∧ byteLen front = n := by
  induction chars generalizing n front with
  | nil =>
    cases n with
    | zero =>
      cases cut
      exact ⟨List.nil_prefix, rfl⟩
    | succ n => cases cut
  | cons c rest ih =>
    cases n with
    | zero =>
      cases cut
      exact ⟨List.nil_prefix, rfl⟩
    | succ n =>
      rw [takeBytes, Option.ite_none_right_eq_some, Option.map_eq_some_iff] at cut
      obtain ⟨fits, later, inside, rfl⟩ := cut
      obtain ⟨ahead, length⟩ := ih inside
      refine ⟨List.cons_prefix_cons.mpr ⟨rfl, ahead⟩, ?_⟩
      rw [byteLen, List.map_cons, List.sum_cons, ← byteLen, length]
      omega

end Text
