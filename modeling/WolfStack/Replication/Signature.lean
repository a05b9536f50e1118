import Mathlib.Data.List.Basic
import Mathlib.Algebra.GroupWithZero.Nat

/-! The rolling checksum and the signature of a file, after
`wolfha/replication/rolling.rs`. A signature describes a file block by block: a weak
checksum that filters and a strong hash that decides. -/

namespace Replication

abbrev Bytes := List UInt8

def strongLen : Nat := 16

/-- The part of a SHA-256 digest that a signature keeps. -/
structure Digest where
  bytes : Bytes
  size : bytes.length = strongLen
deriving DecidableEq

structure BlockSig where
  weak : UInt32
  strong : Digest
deriving DecidableEq

structure FileSignature where
  blockSize : Nat
  baseLen : Nat
  blocks : List BlockSig
deriving DecidableEq

def FileSignature.blockLen (sig : FileSignature) (i : Nat) : Nat := min (sig.baseLen - i * sig.blockSize) sig.blockSize

def weakChecksum (buf : Bytes) : UInt32 :=
  let sums : UInt32 × UInt32 := buf.foldl (fun (s1, s2) b => (s1 + b.toUInt32, s2 + (s1 + b.toUInt32))) (0, 0)
  (sums.1 &&& (0xffff : UInt32)) ||| (sums.2 <<< 16)

structure Rolling where
  s1 : UInt32
  s2 : UInt32
  len : UInt32
deriving DecidableEq

namespace Rolling

def new (buf : Bytes) : Rolling :=
  let sums : UInt32 × UInt32 := buf.foldl (fun (s1, s2) b =>
    let s1 := s1 + b.toUInt32 &&& 0xffff
    (s1, s2 + s1 &&& 0xffff)) (0, 0)
  ⟨sums.1, sums.2, UInt32.ofNat buf.length⟩

def digest (roll : Rolling) : UInt32 := (roll.s1 &&& (0xffff : UInt32)) ||| (roll.s2 <<< 16)

def roll (window : Rolling) (out inb : UInt8) : Rolling :=
  let s1 := window.s1 - out.toUInt32 + inb.toUInt32 &&& 0xffff
  { window with s1, s2 := window.s2 - window.len * out.toUInt32 + s1 &&& 0xffff }

end Rolling

/-- What the reading loop of `signatures` fills its buffer with, turn by turn: it stops
at a short block or at the end of the file. -/
def readBlocks (blockSize : Nat) (base : Bytes) : List Bytes :=
  let block := base.take blockSize
  if _filled : block.length = 0 then []
  else if block.length < blockSize then [block]
  else block :: readBlocks blockSize (base.drop blockSize)
termination_by base.length
decreasing_by
  simp only [block, List.length_take] at _filled
  simp only [List.length_drop]
  omega

section

variable (strongHash : Bytes → Digest)

def blockSig (block : Bytes) : BlockSig := ⟨weakChecksum block, strongHash block⟩

def signatures (base : Bytes) (blockSize : Nat) : FileSignature where
  blockSize
  baseLen := ((readBlocks blockSize base).map List.length).sum
  blocks := (readBlocks blockSize base).map (blockSig strongHash)

end

/-- Block `i` of a file. -/
def block (base : Bytes) (blockSize i : Nat) : Bytes := (base.drop (i * blockSize)).take blockSize

theorem block_zero (base : Bytes) (blockSize : Nat) : block base blockSize 0 = base.take blockSize := by
  simp [block]

theorem block_succ (base : Bytes) (blockSize i : Nat) :
    block base blockSize (i + 1) = block (base.drop blockSize) blockSize i := by
  simp [block, Nat.succ_mul, Nat.add_comm]

theorem length_block (base : Bytes) (blockSize i : Nat) :
    (block base blockSize i).length = min (base.length - i * blockSize) blockSize := by
  simp [block, Nat.min_comm]

theorem sum_readBlocks (blockSize : Nat) (base : Bytes) (positive : 0 < blockSize) :
    ((readBlocks blockSize base).map List.length).sum = base.length := by
  fun_induction readBlocks blockSize base with
  | case1 base block filled =>
    simp only [block, List.length_take] at filled
    simp
    omega
  | case2 base block filled short =>
    simp only [block, List.length_take] at short
    simp [block]
    omega
  | case3 base block filled full ih =>
    simp only [block, List.length_take] at full
    simp [block, ih]
    omega

theorem readBlocks_get (blockSize : Nat) (base : Bytes) (i : Nat) (found : Bytes) :
    (readBlocks blockSize base)[i]? = some found → found = block base blockSize i ∧ found ≠ [] := by
  fun_induction readBlocks blockSize base generalizing i with
  | case1 base piece filled => simp
  | case2 base piece filled short =>
    intro there
    cases i with
    | zero =>
      simp only [List.getElem?_cons_zero, Option.some.injEq] at there
      subst there
      exact ⟨(block_zero base blockSize).symm, by simpa using filled⟩
    | succ i => simp at there
  | case3 base piece filled full ih =>
    intro there
    cases i with
    | zero =>
      simp only [List.getElem?_cons_zero, Option.some.injEq] at there
      subst there
      exact ⟨(block_zero base blockSize).symm, by simpa using filled⟩
    | succ i =>
      rw [block_succ]
      exact ih i there

theorem lt_length_readBlocks (blockSize : Nat) (base : Bytes) (positive : 0 < blockSize) (i : Nat) :
    i < (readBlocks blockSize base).length ↔ i * blockSize < base.length := by
  fun_induction readBlocks blockSize base generalizing i with
  | case1 base block filled =>
    simp only [block, List.length_take] at filled
    have empty : base.length = 0 := by omega
    simp [empty]
  | case2 base block filled short =>
    simp only [block, List.length_take] at filled short
    cases i with
    | zero =>
      simp
      omega
    | succ i =>
      simp [Nat.succ_mul]
      have := Nat.zero_le (i * blockSize)
      omega
  | case3 base block filled full ih =>
    simp only [block, List.length_take] at full
    cases i with
    | zero =>
      simp
      omega
    | succ i =>
      simp only [List.length_cons, Nat.succ_lt_succ_iff, ih, List.length_drop, Nat.succ_mul]
      omega

end Replication
