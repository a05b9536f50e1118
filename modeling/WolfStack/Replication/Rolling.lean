import WolfStack.Replication.Signature
import WolfStack.Lists.Weighted
import Mathlib.Data.BitVec

/-! The checksum that is rolled along a file is that of the window it has come to. Of the sums only the lower sixteen
bits matter, and these are kept by whatever is done with thirty-two. -/

namespace Replication
open Weighted

def window (data : Bytes) (size offset : Nat) : Bytes := (data.drop offset).take size

/-- The state that rolling comes to, step by step, from the first window. -/
def rolled (data : Bytes) (size : Nat) : Nat → Rolling
  | 0 => .new (window data size 0)
  | offset + 1 => (rolled data size offset).roll (data.getD offset 0) (data.getD (offset + size) 0)

def low (x : UInt32) : BitVec 16 := x.toBitVec.setWidth 16

theorem low_add (x y : UInt32) : low (x + y) = low x + low y := by
  rw [low, UInt32.toBitVec_add, BitVec.setWidth_add _ _ (by decide)]
  rfl

theorem low_mul (x y : UInt32) : low (x * y) = low x * low y := by
  rw [low, UInt32.toBitVec_mul, BitVec.setWidth_mul _ _ (by decide)]
  rfl

theorem low_sub (x y : UInt32) : low (x - y) = low x - low y := by
  rw [eq_sub_iff_add_eq, ← low_add, UInt32.sub_add_cancel]

theorem mask_bit (i : Nat) : (0xffff : UInt32).toBitVec.getLsbD i = decide (i < 16) := by
  have mask : (0xffff : UInt32).toBitVec = (BitVec.allOnes 16).setWidth 32 := by decide
  rw [mask, BitVec.getLsbD_setWidth, BitVec.getLsbD_allOnes]
  by_cases small : i < 16
  · simp [small, Nat.lt_trans small (by decide : 16 < 32)]
  · simp [small]

theorem low_mask (x : UInt32) : low (x &&& 0xffff) = low x := by
  apply BitVec.eq_of_getLsbD_eq
  intro i small
  rw [low, low, UInt32.toBitVec_and, BitVec.getLsbD_setWidth, BitVec.getLsbD_setWidth, BitVec.getLsbD_and, mask_bit]
  simp [small]

theorem halves_eq {x y x' y' : UInt32} (first : low x = low x') (second : low y = low y') :
    (x &&& (0xffff : UInt32)) ||| (y <<< 16) = (x' &&& (0xffff : UInt32)) ||| (y' <<< 16) := by
  have halves : ∀ x y : UInt32, ((x &&& (0xffff : UInt32)) ||| (y <<< 16)).toBitVec = ((low y).setWidth 32 <<< 16) ||| (low x).setWidth 32 := by
    intro x y
    apply BitVec.eq_of_getLsbD_eq
    intro i small
    rw [UInt32.toBitVec_or, UInt32.toBitVec_and, UInt32.toBitVec_shiftLeft, BitVec.getLsbD_or, BitVec.getLsbD_or, BitVec.getLsbD_and, mask_bit]
    have shift : ((16 : UInt32).toBitVec % 32).toNat = 16 := by decide
    simp only [BitVec.shiftLeft_eq', shift, BitVec.getLsbD_shiftLeft, BitVec.getLsbD_setWidth, low]
    by_cases lower : i < 16
    · simp [lower, small]
    · have upper : i - 16 < 16 := by omega
      have wide : i - 16 < 32 := by omega
      simp [lower, small, upper, wide]
  apply UInt32.toBitVec_inj.mp
  rw [halves, halves, first, second]

def values (buf : Bytes) : List (BitVec 16) := buf.map fun b => low b.toUInt32

theorem values_concat (buf : Bytes) (b : UInt8) : values (buf ++ [b]) = values buf ++ [low b.toUInt32] := by
  rw [values, List.map_append, List.map_singleton, ← values]

theorem weakChecksum_sums (buf : Bytes) :
    let sums : UInt32 × UInt32 := buf.foldl (fun (s1, s2) b => (s1 + b.toUInt32, s2 + (s1 + b.toUInt32))) (0, 0)
    (low sums.1, low sums.2) = pass (0, 0) (values buf) := by
  induction buf using List.reverseRecOn with
  | nil => rfl
  | append_singleton rest b ih =>
    dsimp only at ih ⊢
    rw [List.foldl_append, values_concat, pass_concat, ← ih, List.foldl_cons, List.foldl_nil]
    dsimp only
    rw [low_add, low_add, low_add]

theorem new_sums (buf : Bytes) : (low (Rolling.new buf).s1, low (Rolling.new buf).s2) = pass (0, 0) (values buf) := by
  induction buf using List.reverseRecOn with
  | nil => rfl
  | append_singleton rest b ih =>
    rw [Rolling.new] at ih ⊢
    dsimp only at ih ⊢
    rw [List.foldl_append, values_concat, pass_concat, ← ih, List.foldl_cons, List.foldl_nil]
    dsimp only
    rw [low_mask, low_mask, low_add, low_add, low_mask, low_add]

/-- The state of a window: both sums, as far as they matter, and the length, which may have wrapped. -/
structure Follows (roll : Rolling) (buf : Bytes) : Prop where
  first : low roll.s1 = (values buf).sum
  second : low roll.s2 = weighted (values buf)
  len : roll.len = UInt32.ofNat buf.length

theorem new_follows (buf : Bytes) : Follows (.new buf) buf := by
  have sums := (new_sums buf).trans (pass_eq (values buf))
  exact ⟨congrArg Prod.fst sums, congrArg Prod.snd sums, rfl⟩

theorem low_ofNat (n : Nat) : low (UInt32.ofNat n) = (n : BitVec 16) := by
  rw [low, UInt32.toBitVec_ofNat', BitVec.setWidth_ofNat_of_le (by decide)]
  rfl

theorem Follows.roll {roll : Rolling} {out inb : UInt8} {middle : Bytes} (follows : Follows roll (out :: middle)) :
    Follows (roll.roll out inb) (middle ++ [inb]) := by
  obtain ⟨first, second, len⟩ := follows
  have one : low (roll.roll out inb).s1 = (values (middle ++ [inb])).sum := by
    rw [Rolling.roll, values_concat, sum_slide (low out.toUInt32)]
    dsimp only
    rw [low_mask, low_add, low_sub, first]
    rfl
  refine ⟨one, ?_, ?_⟩
  · rw [values_concat, weighted_slide (low out.toUInt32), ← values_concat, ← one]
    rw [Rolling.roll]
    dsimp only
    rw [low_mask, low_add, low_sub, low_mul, second, len, low_ofNat]
    have size : (low out.toUInt32 :: values middle).length = (out :: middle).length := by
      rw [List.length_cons, List.length_cons, values, List.length_map]
    rw [size]
    rfl
  · rw [Rolling.roll, List.length_append, List.length_singleton]
    exact len

theorem window_succ {data : Bytes} {size offset : Nat} (positive : 0 < size) (inside : offset + 1 + size ≤ data.length) :
    ∃ middle, window data size offset = data.getD offset 0 :: middle ∧
      window data size (offset + 1) = middle ++ [data.getD (offset + size) 0] := by
  obtain ⟨more, rfl⟩ := Nat.exists_eq_succ_of_ne_zero (Nat.ne_of_gt positive)
  have here : offset < data.length := by omega
  have last : more < (data.drop (offset + 1)).length := by
    rw [List.length_drop]
    omega
  refine ⟨(data.drop (offset + 1)).take more, ?_, ?_⟩
  · rw [window, List.drop_eq_getElem_cons here, List.take_succ_cons, List.getD_eq_getElem?_getD, List.getElem?_eq_getElem here,
      Option.getD_some]
  · have there : offset + (more + 1) < data.length := by omega
    rw [window, List.take_succ_eq_append_getElem last, List.getD_eq_getElem?_getD, List.getElem?_eq_getElem there,
      Option.getD_some, List.getElem_drop]
    congr 3
    omega

theorem rolled_follows {data : Bytes} {size offset : Nat} (positive : 0 < size) (inside : offset + size ≤ data.length) :
    Follows (rolled data size offset) (window data size offset) := by
  induction offset with
  | zero => exact new_follows _
  | succ offset ih =>
    obtain ⟨middle, before, after⟩ := window_succ positive inside
    have follows := ih (by omega)
    rw [before] at follows
    rw [rolled, after]
    exact follows.roll

theorem Follows.digest {roll : Rolling} {buf : Bytes} (follows : Follows roll buf) : roll.digest = weakChecksum buf := by
  have sums := (weakChecksum_sums buf).trans (pass_eq (values buf))
  rw [Rolling.digest, weakChecksum]
  exact halves_eq (follows.first.trans (congrArg Prod.fst sums).symm) (follows.second.trans (congrArg Prod.snd sums).symm)

/-- After any number of steps the rolled checksum is the one that is made from scratch. -/
theorem rolling_matches_recompute {data : Bytes} {size offset : Nat} (positive : 0 < size) (inside : offset + size ≤ data.length) :
    (rolled data size offset).digest = weakChecksum (window data size offset) :=
  (rolled_follows positive inside).digest

theorem rolling_matches_recompute_sample : (rolled [7, 250, 13, 0, 255, 92] 3 3).digest = weakChecksum [0, 255, 92] :=
  @rolling_matches_recompute [7, 250, 13, 0, 255, 92] 3 3 (by decide) (by decide)

end Replication
