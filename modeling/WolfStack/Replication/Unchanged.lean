import WolfStack.Replication.Exact
import WolfStack.Replication.Rolling

/-! A file that is compared with its own signature. Each window that the scan comes to is a block of the file, so that
some block matches it, if not the same one. -/

namespace Replication

def DeltaOp.copied : DeltaOp → List Nat
  | .copy index count => (List.range count.toNat).map (index.toNat + ·)
  | .literal _ => []

def DeltaOp.isCopy : DeltaOp → Bool
  | .copy .. => true
  | .literal _ => false

/-- Nothing but copies, which block by block are of the lengths and the strong hashes that these have. -/
structure Covers (sig : FileSignature) (ops : List DeltaOp) (blocks : List BlockSig) (lengths : List Nat) : Prop where
  copies : ∀ op ∈ ops, op.isCopy = true
  hashes : (ops.flatMap DeltaOp.copied).map (fun i => sig.blocks[i]?.map BlockSig.strong) = blocks.map fun bs => some bs.strong
  lengths : (ops.flatMap DeltaOp.copied).map sig.blockLen = lengths

section
variable {strongHash : Bytes → Digest} {base : Bytes} {sig : FileSignature} {ops : List DeltaOp} {index : UInt32} {blocks : List BlockSig}
  {lengths : List Nat}

theorem pushCopy_copied (inside : Inside sig.blocks.length ops) (few : sig.blocks.length < 2 ^ 32) (within : index.toNat < sig.blocks.length) :
    (pushCopy ops index).flatMap DeltaOp.copied = ops.flatMap DeltaOp.copied ++ [index.toNat] := by
  rcases pushCopy_cases inside few within with pushed | ⟨init, pi, count, shape, pushed, sum, longer⟩
  · rw [pushed, List.flatMap_append]
    simp [DeltaOp.copied, List.range_succ]
  · rw [pushed, shape, List.flatMap_append, List.flatMap_append, List.flatMap_singleton, List.flatMap_singleton, DeltaOp.copied, longer,
      List.range_succ, List.map_append, List.append_assoc, DeltaOp.copied, List.map_singleton, sum]

theorem pushCopy_copies (copies : ∀ op ∈ ops, op.isCopy = true) : ∀ op ∈ pushCopy ops index, op.isCopy = true := by
  intro op member
  rw [pushCopy] at member
  split at member
  · split at member
    · rcases List.mem_append.mp member with old | new
      · exact copies op (List.mem_of_mem_dropLast old)
      · rw [List.mem_singleton.mp new]
        rfl
    · rcases List.mem_append.mp member with old | new
      · exact copies op old
      · rw [List.mem_singleton.mp new]
        rfl
  · rcases List.mem_append.mp member with old | new
    · exact copies op old
    · rw [List.mem_singleton.mp new]
      rfl

theorem Covers.push (covers : Covers sig ops blocks lengths) (inside : Inside sig.blocks.length ops) (few : sig.blocks.length < 2 ^ 32)
    (bs : BlockSig) (strong : sig.strongAt index = some bs.strong) :
    Covers sig (pushCopy ops index) (blocks ++ [bs]) (lengths ++ [sig.blockLen index.toNat]) := by
  have within : index.toNat < sig.blocks.length := by
    obtain ⟨bs', found, -⟩ := Option.map_eq_some_iff.mp strong
    exact (List.getElem?_eq_some_iff.mp found).1
  refine ⟨pushCopy_copies covers.copies, ?_, ?_⟩
  · rw [pushCopy_copied inside few within, List.map_append, covers.hashes, List.map_append, List.map_singleton, List.map_singleton]
    exact congrArg _ (congrArg (fun x => [x]) strong)
  · rw [pushCopy_copied inside few within, List.map_append, covers.lengths, List.map_singleton]

end

/-! ### The file itself -/

section
variable {strongHash : Bytes → Digest} {base : Bytes} {blockSize : Nat}

theorem signatures_block (positive : 0 < blockSize) {i : Nat} (started : i * blockSize < base.length) :
    (signatures strongHash base blockSize).blocks[i]? = some (blockSig strongHash (block base blockSize i)) := by
  have within := (lt_length_readBlocks blockSize base positive i).mpr started
  rw [signatures, List.getElem?_map, List.getElem?_eq_getElem within, Option.map_some]
  rw [(readBlocks_get blockSize base i _ (List.getElem?_eq_getElem within)).1]

theorem signatures_baseLen (positive : 0 < blockSize) : (signatures strongHash base blockSize).baseLen = base.length :=
  sum_readBlocks blockSize base positive

theorem signatures_length (positive : 0 < blockSize) {i : Nat} :
    i < (signatures strongHash base blockSize).blocks.length ↔ i * blockSize < base.length := by
  rw [signatures, List.length_map]
  exact lt_length_readBlocks blockSize base positive i

variable (positive : 0 < blockSize) (few : (signatures strongHash base blockSize).blocks.length < 2 ^ 32)
include positive few

theorem index_back {i : Nat} (started : i * blockSize < base.length) : (UInt32.ofNat i).toNat = i :=
  (signatures_describes strongHash base positive few).toNat_ofNat ((signatures_length positive).mpr started)

theorem strongAt_own {i : Nat} (started : i * blockSize < base.length) :
    (signatures strongHash base blockSize).strongAt (UInt32.ofNat i) = some (strongHash (block base blockSize i)) := by
  rw [FileSignature.strongAt, index_back positive few started, signatures_block positive started]
  rfl

theorem matched_own {i : Nat} (full : (i + 1) * blockSize ≤ base.length) :
    ∃ index, matched strongHash (signatures strongHash base blockSize) (.new (block base blockSize i)) (block base blockSize i) = some index ∧
      (signatures strongHash base blockSize).strongAt index = some (strongHash (block base blockSize i)) ∧
        (signatures strongHash base blockSize).blockLen index.toNat = blockSize := by
  have describes := signatures_describes strongHash base positive few
  rw [Nat.succ_mul] at full
  have started : i * blockSize < base.length := by omega
  have whole : (signatures strongHash base blockSize).blockLen i = (signatures strongHash base blockSize).blockSize := by
    rw [FileSignature.blockLen, signatures_baseLen positive]
    change min (base.length - i * blockSize) blockSize = blockSize
    omega
  have offered : UInt32.ofNat i ∈
      (signatures strongHash base blockSize).candidates (Rolling.new (block base blockSize i)).digest := by
    rw [(new_follows _).digest]
    refine List.mem_map.mpr ⟨(blockSig strongHash (block base blockSize i), i), List.mem_filter.mpr ⟨?_, ?_⟩, rfl⟩
    · exact List.mem_zipIdx_iff_getElem?.mpr (signatures_block positive started)
    · exact decide_eq_true ⟨whole, rfl⟩
  have found : ((signatures strongHash base blockSize).candidates (Rolling.new (block base blockSize i)).digest).find? (fun ci =>
      (signatures strongHash base blockSize).strongAt ci = some (strongHash (block base blockSize i))) ≠ none := by
    rw [Ne, List.find?_eq_none]
    exact fun none_ => none_ _ offered (decide_eq_true (strongAt_own positive few started))
  obtain ⟨index, first⟩ := Option.ne_none_iff_exists'.mp found
  have agrees := List.find?_some first
  simp only [decide_eq_true_eq] at agrees
  exact ⟨index, first, agrees, describes.candidate (List.mem_of_find?_eq_some first)⟩

theorem scan_own {i : Nat} {ops : List DeltaOp} (full : (i + 1) * blockSize ≤ base.length)
    (inside : Inside (signatures strongHash base blockSize).blocks.length ops)
    (covers : Covers (signatures strongHash base blockSize) ops ((signatures strongHash base blockSize).blocks.take i)
      (List.replicate i blockSize)) :
    ∃ k ops', scan strongHash (signatures strongHash base blockSize) (.new (block base blockSize i)) (base.drop (i * blockSize)) [] ops =
        (base.drop (k * blockSize), [], ops') ∧ k * blockSize ≤ base.length ∧ base.length < (k + 1) * blockSize ∧
      Inside (signatures strongHash base blockSize).blocks.length ops' ∧
        Covers (signatures strongHash base blockSize) ops' ((signatures strongHash base blockSize).blocks.take k) (List.replicate k blockSize) := by
  obtain ⟨left, remaining⟩ : ∃ left, base.length - i * blockSize = left := ⟨_, rfl⟩
  induction left using Nat.strong_induction_on generalizing i ops with
  | _ left ih =>
    subst remaining
    rw [Nat.succ_mul] at full
    have started : i * blockSize < base.length := by omega
    obtain ⟨index, found, strong, whole⟩ := matched_own positive few (by rw [Nat.succ_mul]; exact full)
    have within := ((signatures_describes strongHash base positive few).strongAt strong).1
    have grown := inside_pushCopy inside few within
    have longer := covers.push inside few (blockSig strongHash (block base blockSize i)) strong
    have taken : (signatures strongHash base blockSize).blocks.take (i + 1) =
        (signatures strongHash base blockSize).blocks.take i ++ [blockSig strongHash (block base blockSize i)] := by
      rw [List.take_add_one, signatures_block positive started]
      rfl
    rw [whole, ← List.replicate_succ', ← taken] at longer
    obtain ⟨out, tail, shape⟩ : ∃ out tail, base.drop (i * blockSize) = out :: tail :=
      List.exists_cons_of_ne_nil (by rw [Ne, List.drop_eq_nil_iff]; omega)
    have next : tail.drop (blockSize - 1) = base.drop ((i + 1) * blockSize) := by
      rw [Nat.succ_mul, ← List.drop_drop, shape, ← List.drop_succ_cons (a := out), Nat.sub_add_cancel positive]
    have here : matched strongHash (signatures strongHash base blockSize) (.new (block base blockSize i))
        ((out :: tail).take (signatures strongHash base blockSize).blockSize) = some index := by
      rw [← shape]
      exact found
    have rest : (tail.drop ((signatures strongHash base blockSize).blockSize - 1)).length = base.length - (i + 1) * blockSize := by
      rw [← List.length_drop, ← next]
      rfl
    rw [shape, scan, here]
    dsimp only
    rw [flushLiteral, List.isEmpty_nil, if_pos rfl]
    by_cases short : base.length - (i + 1) * blockSize < blockSize
    · rw [if_pos (by rw [rest]; exact short)]
      refine ⟨i + 1, _, ?_, ?_, ?_, grown, longer⟩
      · rw [← next]
        rfl
      · rw [Nat.succ_mul]
        exact full
      · rw [Nat.succ_mul (i + 1)]
        omega
    · rw [if_neg (by rw [rest]; exact short)]
      rw [Nat.succ_mul] at short
      have fuller : (i + 1 + 1) * blockSize ≤ base.length := by
        rw [Nat.succ_mul, Nat.succ_mul]
        omega
      have later := ih (base.length - (i + 1) * blockSize) (by rw [Nat.succ_mul]; omega) fuller grown longer rfl
      rw [block, ← next] at later
      exact later

theorem finish_own {k : Nat} {ops : List DeltaOp} (low : k * blockSize ≤ base.length) (high : base.length < (k + 1) * blockSize)
    (inside : Inside (signatures strongHash base blockSize).blocks.length ops)
    (covers : Covers (signatures strongHash base blockSize) ops ((signatures strongHash base blockSize).blocks.take k)
      (List.replicate k blockSize)) :
    ∃ lengths, Covers (signatures strongHash base blockSize)
        (finish strongHash (signatures strongHash base blockSize) (base.drop (k * blockSize), [], ops))
        (signatures strongHash base blockSize).blocks lengths ∧ lengths.sum = base.length := by
  rw [Nat.succ_mul] at high
  have count : ∀ i, i < (signatures strongHash base blockSize).blocks.length ↔ i * blockSize < base.length :=
    fun i => signatures_length positive
  have len : ∀ i, (signatures strongHash base blockSize).blockLen i = min (base.length - i * blockSize) blockSize := by
    intro i
    rw [FileSignature.blockLen, signatures_baseLen positive]
    rfl
  by_cases done : k * blockSize = base.length
  · have all : (signatures strongHash base blockSize).blocks.length ≤ k := by
      by_contra more
      have started := (count k).mp (by omega)
      omega
    have none_ : (signatures strongHash base blockSize).tailBlock = none := by
      rw [FileSignature.tailBlock]
      cases blocks : (signatures strongHash base blockSize).blocks.length with
      | zero => rfl
      | succ last =>
        have before : (last + 1) * blockSize ≤ k * blockSize := Nat.mul_le_mul_right _ (blocks ▸ all)
        rw [Nat.succ_mul] at before
        refine if_neg fun short => ?_
        have full : (signatures strongHash base blockSize).blockLen last = (signatures strongHash base blockSize).blockSize := by
          rw [len]
          change min (base.length - last * blockSize) blockSize = blockSize
          omega
        omega
    refine ⟨List.replicate k blockSize, ?_, ?_⟩
    · rw [List.take_of_length_le all] at covers
      rw [finish, none_, done, List.drop_length]
      exact covers
    · rw [List.sum_replicate_nat, done]
  · have started : k * blockSize < base.length := by omega
    have length : (signatures strongHash base blockSize).blocks.length = k + 1 := by
      have some_ := (count k).mpr started
      have last : ¬k + 1 < (signatures strongHash base blockSize).blocks.length := fun more => by
        have begun := (count (k + 1)).mp more
        rw [Nat.succ_mul] at begun
        omega
      omega
    have short : (signatures strongHash base blockSize).blockLen k = base.length - k * blockSize := by
      rw [len]
      omega
    have tail : (signatures strongHash base blockSize).tailBlock = some (UInt32.ofNat k, base.length - k * blockSize) := by
      rw [FileSignature.tailBlock, length]
      dsimp only
      rw [short]
      refine if_pos ⟨by omega, ?_⟩
      change base.length - k * blockSize < blockSize
      omega
    have whole : block base blockSize k = base.drop (k * blockSize) := by
      rw [block, List.take_of_length_le (by rw [List.length_drop]; omega)]
    have strong := strongAt_own positive few started
    have longer := covers.push inside few (blockSig strongHash (block base blockSize k)) strong
    have all : (signatures strongHash base blockSize).blocks.take k ++ [blockSig strongHash (block base blockSize k)] =
        (signatures strongHash base blockSize).blocks := by
      have taken := List.take_of_length_le (Nat.le_of_eq length)
      rw [List.take_add_one, signatures_block positive started] at taken
      exact taken
    rw [all, index_back positive few started, short] at longer
    refine ⟨List.replicate k blockSize ++ [base.length - k * blockSize], ?_, ?_⟩
    · rw [finish, tail]
      dsimp only
      rw [if_pos ⟨List.length_drop, by rw [strong, whole]⟩, flushLiteral, List.isEmpty_nil, if_pos rfl]
      exact longer
    · rw [List.sum_append, List.sum_replicate_nat, List.sum_singleton]
      omega

/-- The delta of a file against its own signature: copies only, which go through the blocks of the file by their
strong hashes and are as long as the file. -/
theorem unchanged_copies : (∀ op ∈ deltaFromBytes strongHash base (signatures strongHash base blockSize), op.isCopy = true) ∧
    ((deltaFromBytes strongHash base (signatures strongHash base blockSize)).flatMap DeltaOp.copied).map (fun i =>
        (signatures strongHash base blockSize).blocks[i]?.map BlockSig.strong) =
      (signatures strongHash base blockSize).blocks.map (fun bs => some bs.strong) ∧
    (((deltaFromBytes strongHash base (signatures strongHash base blockSize)).flatMap DeltaOp.copied).map
      (signatures strongHash base blockSize).blockLen).sum = base.length := by
  have start : Covers (signatures strongHash base blockSize) [] ((signatures strongHash base blockSize).blocks.take 0) (List.replicate 0 blockSize) :=
    ⟨fun _ member => (List.not_mem_nil member).elim, rfl, rfl⟩
  have outside : Inside (signatures strongHash base blockSize).blocks.length [] := fun _ _ member => (List.not_mem_nil member).elim
  obtain ⟨lengths, covers, total⟩ : ∃ lengths, Covers (signatures strongHash base blockSize)
      (deltaFromBytes strongHash base (signatures strongHash base blockSize)) (signatures strongHash base blockSize).blocks lengths ∧
        lengths.sum = base.length := by
    rw [deltaFromBytes]
    split
    · rename_i nothing
      have none_ : (signatures strongHash base blockSize).blocks = [] := nothing.resolve_left (Nat.ne_of_gt positive)
      have empty : base = [] := by
        by_contra some_
        have begun := (@signatures_length strongHash base blockSize positive 0).mpr (by simpa using List.length_pos_iff.mpr some_)
        rw [none_] at begun
        cases begun
      refine ⟨[], ?_, by rw [empty]; rfl⟩
      rw [if_pos (by rw [empty]; rfl), none_]
      exact start
    · split
      · rename_i long
        have full : (0 + 1) * blockSize ≤ base.length := by
          rw [Nat.zero_add, Nat.one_mul]
          exact long
        obtain ⟨k, ops, scanned, low, high, inside, covers⟩ := scan_own positive few full outside start
        rw [Nat.zero_mul, List.drop_zero, block_zero] at scanned
        have ended := finish_own positive few low high inside covers
        rw [← scanned] at ended
        exact ended
      · rename_i short
        have ended := finish_own positive few (k := 0) (by omega) (by rw [Nat.zero_add, Nat.one_mul]; exact Nat.lt_of_not_le short) outside start
        rwa [Nat.zero_mul, List.drop_zero] at ended
  exact ⟨covers.copies, covers.hashes, by rw [covers.lengths, total]⟩

end

theorem unchanged_copies_sample :
    ((deltaFromBytes paddedHash [1, 2, 3, 1, 2, 4] (signatures paddedHash [1, 2, 3, 1, 2, 4] 4)).all DeltaOp.isCopy) = true :=
  List.all_eq_true.mpr (@unchanged_copies paddedHash [1, 2, 3, 1, 2, 4] 4 (by decide) (by decide +kernel)).1

theorem matched_wrapped {zeros : Nat} (wraps : zeros + 1 = 2 ^ 32) :
    matched paddedHash (signatures paddedHash (zerosThenOne (zeros + 1)) 1) (.new [1]) [1] = none := by
  have index : UInt32.ofNat (zeros + 1) = 0 := by
    rw [wraps]
    decide
  have strong : (signatures paddedHash (zerosThenOne (zeros + 1)) 1).strongAt 0 = some (paddedHash [0]) := by
    rw [zerosThenOne_signatures, FileSignature.strongAt, List.replicate_succ]
    rfl
  rw [matched, candidates_one, index, List.find?_cons, strong]
  have other : decide (some (paddedHash [0]) = some (paddedHash [1])) = false := by decide +kernel
  rw [other]
  rfl

theorem scan_wrapped {zeros : Nat} (wraps : zeros + 1 = 2 ^ 32) (left : Nat) (ops : List DeltaOp) :
    ∃ ops', scan paddedHash (signatures paddedHash (zerosThenOne (zeros + 1)) 1) (.new ((zerosThenOne left).take 1)) (zerosThenOne left) [] ops =
      ([], [1], ops') := by
  have missed := matched_wrapped wraps
  have found := matched_zero zeros
  have size : (signatures paddedHash (zerosThenOne (zeros + 1)) 1).blockSize = 1 := rfl
  generalize signatures paddedHash (zerosThenOne (zeros + 1)) 1 = sig at *
  induction left generalizing ops with
  | zero =>
    refine ⟨ops, ?_⟩
    have one : zerosThenOne 0 = [1] := rfl
    rw [one, scan, size]
    simp [missed]
  | succ left ih =>
    have more : zerosThenOne (left + 1) = 0 :: zerosThenOne left := rfl
    have long : ¬(zerosThenOne left).length < 1 := by
      rw [zerosThenOne, List.length_append, List.length_singleton]
      omega
    obtain ⟨ops', onward⟩ := ih (pushCopy (flushLiteral ops []) 0)
    refine ⟨ops', ?_⟩
    rw [more, scan, size, List.take_succ_cons, List.take_zero, found]
    dsimp only
    rw [Nat.sub_self, List.drop_zero, if_neg long]
    exact onward

/-- With `2 ^ 32` zero bytes and a one, the number of the last block wraps to that of the first, and the one is sent. -/
theorem last_block_sent :
    ¬∀ op ∈ deltaFromBytes paddedHash (zerosThenOne (2 ^ 32)) (signatures paddedHash (zerosThenOne (2 ^ 32)) 1), op.isCopy = true := by
  obtain ⟨zeros, wraps⟩ : ∃ zeros, zeros + 1 = 2 ^ 32 := ⟨2 ^ 32 - 1, rfl⟩
  rw [← wraps]
  intro all
  obtain ⟨ops, scanned⟩ := scan_wrapped wraps (zeros + 1) []
  have last : (signatures paddedHash (zerosThenOne (zeros + 1)) 1).tailBlock = none := by
    rw [zerosThenOne_signatures]
    simp [FileSignature.tailBlock, FileSignature.blockLen]
  have size : (signatures paddedHash (zerosThenOne (zeros + 1)) 1).blockSize = 1 := rfl
  have some_ : (signatures paddedHash (zerosThenOne (zeros + 1)) 1).blocks ≠ [] := by
    rw [zerosThenOne_signatures]
    simp
  have long : 1 ≤ (zerosThenOne (zeros + 1)).length := by
    rw [zerosThenOne, List.length_append, List.length_singleton]
    omega
  have sent : deltaFromBytes paddedHash (zerosThenOne (zeros + 1)) (signatures paddedHash (zerosThenOne (zeros + 1)) 1) =
      ops ++ [.literal [1]] := by
    rw [deltaFromBytes, if_neg (by simp [size, some_]), if_pos (by rw [size]; exact long), size, scanned, finish, last]
    rfl
  rw [sent] at all
  exact absurd (all _ (List.mem_append_right _ (List.mem_singleton_self _))) (by decide)

end Replication
