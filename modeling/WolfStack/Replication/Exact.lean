import WolfStack.Replication.Delta

/-! A delta rebuilds the data it was made from. The instructions emitted so far always
apply to the base and give the data already scanned, up to the pending literal; a copy
refers to blocks of the signature, so its index and count do not wrap. -/

namespace Replication

structure Describes (strongHash : Bytes → Digest) (base : Bytes) (sig : FileSignature) : Prop where
  positive : 0 < sig.blockSize
  length : sig.baseLen = base.length
  few : sig.blocks.length < 2 ^ 32
  started : ∀ i < sig.blocks.length, i * sig.blockSize < base.length
  strong : ∀ i bs, sig.blocks[i]? = some bs → bs.strong = strongHash (block base sig.blockSize i)

theorem signatures_take_describes (strongHash : Bytes → Digest) (base : Bytes) {blockSize count : Nat}
    (positive : 0 < blockSize) (few : count < 2 ^ 32) :
    Describes strongHash base
      { signatures strongHash base blockSize with blocks := (signatures strongHash base blockSize).blocks.take count } where
  positive := positive
  length := sum_readBlocks blockSize base positive
  few := Nat.lt_of_le_of_lt (List.length_take_le _ _) few
  started := by
    intro i within
    simp only [signatures, List.length_take, List.length_map] at within
    exact (lt_length_readBlocks blockSize base positive i).mp (by omega)
  strong := by
    intro i bs there
    simp only [signatures, List.getElem?_take, Option.ite_none_right_eq_some, List.getElem?_map,
      Option.map_eq_some_iff] at there
    obtain ⟨-, found, read, rfl⟩ := there
    rw [blockSig, (readBlocks_get blockSize base i found read).1]
    rfl

theorem signatures_describes (strongHash : Bytes → Digest) (base : Bytes) {blockSize : Nat} (positive : 0 < blockSize)
    (few : (signatures strongHash base blockSize).blocks.length < 2 ^ 32) :
    Describes strongHash base (signatures strongHash base blockSize) := by
  have describes := signatures_take_describes strongHash base positive few
  rwa [List.take_length] at describes

namespace Describes

variable {strongHash : Bytes → Digest} {base : Bytes} {sig : FileSignature}

theorem blockLen_eq (describes : Describes strongHash base sig) (i : Nat) :
    sig.blockLen i = (block base sig.blockSize i).length := by
  rw [FileSignature.blockLen, describes.length, length_block]

theorem strongAt (describes : Describes strongHash base sig) {index : UInt32} {strong : Digest}
    (there : sig.strongAt index = some strong) :
    index.toNat < sig.blocks.length ∧ strong = strongHash (block base sig.blockSize index.toNat) := by
  obtain ⟨bs, found, rfl⟩ := Option.map_eq_some_iff.mp there
  exact ⟨(List.getElem?_eq_some_iff.mp found).1, describes.strong index.toNat bs found⟩

theorem toNat_ofNat (describes : Describes strongHash base sig) {i : Nat} (within : i < sig.blocks.length) :
    (UInt32.ofNat i).toNat = i := by
  have few := describes.few
  exact UInt32.toNat_ofNat_of_lt' (Nat.lt_trans within few)

theorem candidate (describes : Describes strongHash base sig) {weak index : UInt32} (offered : index ∈ sig.candidates weak) :
    sig.blockLen index.toNat = sig.blockSize := by
  simp only [FileSignature.candidates, List.mem_map, List.mem_filter, decide_eq_true_eq, Prod.exists] at offered
  obtain ⟨bs, i, ⟨member, full, -⟩, rfl⟩ := offered
  have within := (List.getElem?_eq_some_iff.mp (List.mem_zipIdx_iff_getElem?.mp member)).1
  rwa [describes.toNat_ofNat within]

theorem tail (describes : Describes strongHash base sig) {index : UInt32} {len : Nat} (last : sig.tailBlock = some (index, len)) :
    len = sig.blockLen index.toNat := by
  rw [FileSignature.tailBlock] at last
  cases blocks : sig.blocks.length with
  | zero => simp [blocks] at last
  | succ count =>
    simp only [blocks, Option.ite_none_right_eq_some, Option.some.injEq, Prod.mk.injEq] at last
    obtain ⟨-, rfl, rfl⟩ := last
    rw [describes.toNat_ofNat (by omega)]

end Describes

theorem applyDelta_append (basePath : String) (base : Bytes) (blockSize : Nat) (ops : List DeltaOp) (op : DeltaOp) :
    applyDelta basePath base blockSize (ops ++ [op]) =
      applyDelta basePath base blockSize ops >>= fun out => applyOp basePath base blockSize out op := by
  simp only [applyDelta, List.foldlM_append, List.foldlM_cons, List.foldlM_nil, bind_pure]

/-- Copies stay inside the first `blocks` blocks. -/
def Inside (blocks : Nat) (ops : List DeltaOp) : Prop :=
  ∀ index count, .copy index count ∈ ops → 0 < count.toNat ∧ index.toNat + count.toNat ≤ blocks

theorem copyBlock_shift (basePath : String) (base out : Bytes) (blockSize : Nat) {first index : UInt32} {k : Nat}
    (same : first.toNat + k = index.toNat) :
    copyBlock basePath base blockSize out first k = copyBlock basePath base blockSize out index 0 := by
  have number : first + UInt32.ofNat k = index + UInt32.ofNat 0 := by
    apply UInt32.toNat_inj.mp
    have small := index.toNat_lt
    simp only [UInt32.toNat_add, UInt32.toNat_ofNat', Nat.add_mod_mod, same]
    simp
  simp only [copyBlock, same, number, Nat.add_zero]

section

variable {ops : List DeltaOp} {blocks : Nat} {index : UInt32}

theorem pushCopy_cases (inside : Inside blocks ops) (few : blocks < 2 ^ 32) (within : index.toNat < blocks) :
    pushCopy ops index = ops ++ [.copy index 1] ∨
    ∃ init pi count, ops = init ++ [.copy pi count] ∧ pushCopy ops index = init ++ [.copy pi (count + 1)] ∧
      pi.toNat + count.toNat = index.toNat ∧ (count + 1).toNat = count.toNat + 1 := by
  rw [pushCopy]
  split
  · rename_i pi count last
    split
    · rename_i follows
      obtain ⟨-, bound⟩ := inside pi count (List.mem_of_getLast? last)
      have sum : pi.toNat + count.toNat = index.toNat := by
        rw [← follows, UInt32.toNat_add, Nat.mod_eq_of_lt (by omega)]
      have longer : (count + 1).toNat = count.toNat + 1 := by
        rw [UInt32.toNat_add, UInt32.toNat_one, Nat.mod_eq_of_lt (by omega)]
      exact .inr ⟨ops.dropLast, pi, count, (List.dropLast_append_getLast? _ last).symm, rfl, sum, longer⟩
    · exact .inl rfl
  · exact .inl rfl

theorem applyDelta_pushCopy (basePath : String) (base : Bytes) (blockSize : Nat) (inside : Inside blocks ops)
    (few : blocks < 2 ^ 32) (within : index.toNat < blocks) :
    applyDelta basePath base blockSize (pushCopy ops index) =
      applyDelta basePath base blockSize ops >>= fun out => copyBlock basePath base blockSize out index 0 := by
  rcases pushCopy_cases inside few within with pushed | ⟨init, pi, count, shape, pushed, sum, longer⟩
  · rw [pushed, applyDelta_append]
    simp [applyOp, List.range_succ]
  · rw [pushed, shape, applyDelta_append, applyDelta_append, bind_assoc]
    congr 1
    funext out
    simp only [applyOp, longer, List.range_succ, List.foldlM_append, List.foldlM_cons, List.foldlM_nil, bind_pure,
      copyBlock_shift basePath base _ blockSize sum]

theorem inside_pushCopy (inside : Inside blocks ops) (few : blocks < 2 ^ 32) (within : index.toNat < blocks) :
    Inside blocks (pushCopy ops index) := by
  intro first number member
  rcases pushCopy_cases inside few within with pushed | ⟨init, pi, count, shape, pushed, sum, longer⟩
  · rw [pushed, List.mem_append, List.mem_singleton] at member
    rcases member with old | new
    · exact inside first number old
    · cases new
      simp only [UInt32.toNat_one]
      omega
  · rw [pushed, List.mem_append, List.mem_singleton] at member
    rcases member with old | new
    · exact inside first number (shape ▸ List.mem_append_left _ old)
    · cases new
      omega

theorem inside_flushLiteral (inside : Inside blocks ops) (literal : Bytes) : Inside blocks (flushLiteral ops literal) := by
  intro first number member
  rw [flushLiteral] at member
  split at member
  · exact inside first number member
  · simp only [List.mem_append, List.mem_singleton, reduceCtorEq, or_false] at member
    exact inside first number member

theorem applyDelta_flushLiteral {basePath : String} {base out : Bytes} {blockSize : Nat}
    (applied : applyDelta basePath base blockSize ops = .ok out) (literal : Bytes) :
    applyDelta basePath base blockSize (flushLiteral ops literal) = .ok (out ++ literal) := by
  rw [flushLiteral]
  split
  · rename_i empty
    rw [List.isEmpty_iff.mp empty, List.append_nil, applied]
  · rw [applyDelta_append, applied]
    rfl

end

/-- A relation that rebuilt data has to the data it stands for, piece by piece. -/
structure Congruent (same : Bytes → Bytes → Prop) : Prop where
  refl : ∀ bytes, same bytes bytes
  append : ∀ {left right left' right'}, same left left' → same right right' → same (left ++ right) (left' ++ right')

/-- Equal hashes of a window and a block it is compared with are no accident. -/
def Trusted (strongHash : Bytes → Digest) (base data : Bytes) (sig : FileSignature) (same : Bytes → Bytes → Prop) : Prop :=
  ∀ i < sig.blocks.length, ∀ window, window <:+: data → window.length = (block base sig.blockSize i).length →
    strongHash window = strongHash (block base sig.blockSize i) → same window (block base sig.blockSize i)

structure Rebuilds (same : Bytes → Bytes → Prop) (basePath : String) (base : Bytes) (sig : FileSignature)
    (ops : List DeltaOp) (done : Bytes) : Prop where
  inside : Inside sig.blocks.length ops
  applied : ∃ out, applyDelta basePath base sig.blockSize ops = .ok out ∧ same done out

section

variable {strongHash : Bytes → Digest} {same : Bytes → Bytes → Prop} {basePath : String} {base data : Bytes}
  {sig : FileSignature} {ops : List DeltaOp} {done literal rest : Bytes}

theorem Rebuilds.flush (rebuilds : Rebuilds same basePath base sig ops done) (congruent : Congruent same)
    (literal : Bytes) : Rebuilds same basePath base sig (flushLiteral ops literal) (done ++ literal) := by
  obtain ⟨out, applied, alike⟩ := rebuilds.applied
  exact ⟨inside_flushLiteral rebuilds.inside literal, out ++ literal, applyDelta_flushLiteral applied literal,
    congruent.append alike (congruent.refl literal)⟩

theorem Rebuilds.push (rebuilds : Rebuilds same basePath base sig ops done) (congruent : Congruent same)
    (describes : Describes strongHash base sig) {index : UInt32} {window : Bytes}
    (within : index.toNat < sig.blocks.length) (alike : same window (block base sig.blockSize index.toNat)) :
    Rebuilds same basePath base sig (pushCopy ops index) (done ++ window) := by
  obtain ⟨out, applied, before⟩ := rebuilds.applied
  refine ⟨inside_pushCopy rebuilds.inside describes.few within, out ++ block base sig.blockSize index.toNat, ?_,
    congruent.append before alike⟩
  have filled : (block base sig.blockSize index.toNat).isEmpty = false := by
    have started := describes.started index.toNat within
    have positive := describes.positive
    rw [List.isEmpty_eq_false_iff, ← List.length_pos_iff, length_block]
    omega
  rw [applyDelta_pushCopy basePath base sig.blockSize rebuilds.inside describes.few within, applied]
  simp only [Except.bind, bind, copyBlock, Nat.add_zero]
  rw [if_neg]
  · rfl
  · rw [← block, filled]
    simp

/-- Where the data is cut: what the instructions cover, the pending literal, the rest. -/
structure Progress (same : Bytes → Bytes → Prop) (basePath : String) (base data : Bytes) (sig : FileSignature)
    (state : Bytes × Bytes × List DeltaOp) : Prop where
  cut : ∃ done, Rebuilds same basePath base sig state.2.2 done ∧ done ++ state.2.1 ++ state.1 = data

theorem matched_alike (describes : Describes strongHash base sig) (trusted : Trusted strongHash base data sig same)
    {roll : Rolling} {window : Bytes} {index : UInt32} (found : matched strongHash sig roll window = some index)
    (full : window.length = sig.blockSize) (part : window <:+: data) :
    index.toNat < sig.blocks.length ∧ same window (block base sig.blockSize index.toNat) := by
  have agrees := List.find?_some found
  simp only [decide_eq_true_eq] at agrees
  obtain ⟨within, strong⟩ := describes.strongAt agrees
  have whole := describes.candidate (List.mem_of_find?_eq_some found)
  rw [describes.blockLen_eq] at whole
  exact ⟨within, trusted index.toNat within window part (full.trans whole.symm) strong⟩

theorem matched_step (congruent : Congruent same) (describes : Describes strongHash base sig)
    (trusted : Trusted strongHash base data sig same) {roll : Rolling} {index : UInt32}
    (found : matched strongHash sig roll (rest.take sig.blockSize) = some index)
    (rebuilds : Rebuilds same basePath base sig ops done) (cut : done ++ literal ++ rest = data)
    (long : sig.blockSize ≤ rest.length) :
    Rebuilds same basePath base sig (pushCopy (flushLiteral ops literal) index)
      (done ++ literal ++ rest.take sig.blockSize) := by
  have full : (rest.take sig.blockSize).length = sig.blockSize := by
    rw [List.length_take, Nat.min_eq_left long]
  have part : rest.take sig.blockSize <:+: data :=
    (List.take_prefix _ rest).isInfix.trans (cut ▸ (List.suffix_append _ rest).isInfix)
  obtain ⟨within, alike⟩ := matched_alike describes trusted found full part
  exact (rebuilds.flush congruent literal).push congruent describes within alike

theorem scan_progress (congruent : Congruent same) (describes : Describes strongHash base sig)
    (trusted : Trusted strongHash base data sig same) (roll : Rolling)
    (rebuilds : Rebuilds same basePath base sig ops done) (cut : done ++ literal ++ rest = data)
    (long : sig.blockSize ≤ rest.length) :
    Progress same basePath base data sig (scan strongHash sig roll rest literal ops) := by
  have positive := describes.positive
  -- `pos += block_size` on a window that starts at the head of the rest
  have advance (out : UInt8) (tail : Bytes) : tail.drop (sig.blockSize - 1) = (out :: tail).drop sig.blockSize := by
    rw [← List.drop_succ_cons (a := out), Nat.sub_add_cancel positive]
  fun_induction scan strongHash sig roll rest literal ops generalizing done with
  | case1 roll literal ops =>
    simp only [List.length_nil] at long
    omega
  | case2 roll literal ops out tail index found ops' next =>
    refine ⟨_, matched_step congruent describes trusted found rebuilds cut long, ?_⟩
    simp only [next, advance out tail, List.append_nil]
    rw [List.append_assoc, List.take_append_drop, cut]
  | case3 roll literal ops out tail index found ops' next more =>
    rename_i ih
    refine ih (matched_step congruent describes trusted found rebuilds cut long) ?_ (by omega)
    simp only [next, advance out tail, List.append_nil]
    rw [List.append_assoc, List.take_append_drop, cut]
  | case4 roll literal ops out tail missed last =>
    exact ⟨done, rebuilds, by simpa using cut⟩
  | case5 roll literal ops out tail missed inb entering ih =>
    have inside := (List.getElem?_eq_some_iff.mp entering).1
    exact ih rebuilds (by simpa using cut) (by omega)

theorem finish_rebuilds (congruent : Congruent same) (describes : Describes strongHash base sig)
    (trusted : Trusted strongHash base data sig same) {state : Bytes × Bytes × List DeltaOp}
    (progress : Progress same basePath base data sig state) :
    Rebuilds same basePath base sig (finish strongHash sig state) data := by
  obtain ⟨rest, literal, ops⟩ := state
  obtain ⟨done, rebuilds, cut⟩ := progress
  have sent : Rebuilds same basePath base sig (flushLiteral ops (literal ++ rest)) data := by
    rw [← cut, List.append_assoc]
    exact rebuilds.flush congruent (literal ++ rest)
  simp only [finish]
  split
  · rename_i index len last
    split
    · rename_i agrees
      obtain ⟨within, strong⟩ := describes.strongAt agrees.2
      have size : rest.length = (block base sig.blockSize index.toNat).length := by
        rw [agrees.1, describes.tail last, describes.blockLen_eq]
      have part : rest <:+: data := cut ▸ (List.suffix_append _ rest).isInfix
      have alike := trusted index.toNat within rest part size strong
      rw [← cut]
      exact (rebuilds.flush congruent literal).push congruent describes within alike
    · exact sent
  · exact sent

/-- Whatever relation equal hashes vouch for holds between the data and what a replica
rebuilds from the delta, and every copy refers to blocks of the signature. -/
theorem deltaFromBytes_rebuilds (congruent : Congruent same) (describes : Describes strongHash base sig)
    (trusted : Trusted strongHash base data sig same) :
    Rebuilds same basePath base sig (deltaFromBytes strongHash data sig) data := by
  have start : Rebuilds same basePath base sig [] [] := ⟨by simp [Inside], [], rfl, congruent.refl []⟩
  rw [deltaFromBytes]
  split
  · split
    · rename_i empty
      rw [List.isEmpty_iff.mp empty]
      exact start
    · refine ⟨by simp [Inside], data, rfl, congruent.refl data⟩
  · split
    · rename_i long
      exact finish_rebuilds congruent describes trusted
        (scan_progress congruent describes trusted _ start (by simp) long)
    · exact finish_rebuilds congruent describes trusted ⟨[], start, by simp⟩

end

def NoCollision (strongHash : Bytes → Digest) (base target : Bytes) (blockSize : Nat) : Prop :=
  Trusted strongHash base target (signatures strongHash base blockSize) (· = ·)

/-- A delta against a base of fewer than `2 ^ 32` blocks rebuilds its target, whatever
their lengths and however the target is aligned. -/
theorem delta_exact (strongHash : Bytes → Digest) (basePath : String) (base target : Bytes) (blockSize : Nat)
    (positive : 0 < blockSize) (few : (signatures strongHash base blockSize).blocks.length < 2 ^ 32)
    (distinct : NoCollision strongHash base target blockSize) :
    applyDelta basePath base blockSize (deltaFromBytes strongHash target (signatures strongHash base blockSize)) =
      .ok target ∧
    Inside (signatures strongHash base blockSize).blocks.length
      (deltaFromBytes strongHash target (signatures strongHash base blockSize)) := by
  have congruent : Congruent (fun left right : Bytes => left = right) :=
    ⟨fun _ => rfl, fun left right => by rw [left, right]⟩
  have rebuilds : Rebuilds (· = ·) basePath base (signatures strongHash base blockSize)
      (deltaFromBytes strongHash target (signatures strongHash base blockSize)) target :=
    deltaFromBytes_rebuilds congruent (signatures_describes strongHash base positive few) distinct
  obtain ⟨out, applied, rfl⟩ := rebuilds.applied
  exact ⟨applied, rebuilds.inside⟩

/-- A hash without collisions among blocks of equal length up to sixteen bytes. -/
def paddedHash (block : Bytes) : Digest where
  bytes := (block ++ List.replicate strongLen 0).take strongLen
  size := by simp

theorem paddedHash_inj {left right : Bytes} (size : left.length = right.length) (short : right.length ≤ strongLen)
    (same : paddedHash left = paddedHash right) : left = right := by
  have padded : (left ++ List.replicate strongLen 0).take strongLen = (right ++ List.replicate strongLen 0).take strongLen :=
    congrArg Digest.bytes same
  have heads := congrArg (List.take right.length) padded
  rw [List.take_take, List.take_take, Nat.min_eq_left short, ← size, List.take_left, size, List.take_left] at heads
  exact heads

theorem paddedHash_noCollision (base target : Bytes) {blockSize : Nat} (short : blockSize ≤ strongLen) :
    NoCollision paddedHash base target blockSize := by
  intro i _ window _ size same
  refine paddedHash_inj size ?_ same
  rw [length_block]
  exact Nat.le_trans (Nat.min_le_right _ _) short

theorem delta_exact_sample :
    applyDelta "disk.img" [1, 2, 3, 4, 5] 2 (deltaFromBytes paddedHash [9, 3, 4, 1, 2, 3, 4, 5]
      (signatures paddedHash [1, 2, 3, 4, 5] 2)) = .ok [9, 3, 4, 1, 2, 3, 4, 5] :=
  (delta_exact paddedHash "disk.img" [1, 2, 3, 4, 5] [9, 3, 4, 1, 2, 3, 4, 5] 2 (by decide) (by decide +kernel)
    (paddedHash_noCollision _ _ (by decide))).1

example : deltaFromBytes paddedHash [9, 3, 4, 1, 2, 3, 4, 5] (signatures paddedHash [1, 2, 3, 4, 5] 2) =
    [.literal [9], .copy 1 1, .copy 0 3] := by
  decide +kernel

theorem readBlocks_one (base : Bytes) : readBlocks 1 base = base.map fun byte => [byte] := by
  induction base with
  | nil =>
    rw [readBlocks]
    simp
  | cons byte rest ih =>
    rw [readBlocks]
    simp [ih]

def zerosThenOne (zeros : Nat) : Bytes := List.replicate zeros 0 ++ [1]

theorem zerosThenOne_signatures (zeros : Nat) :
    signatures paddedHash (zerosThenOne zeros) 1 =
      ⟨1, zeros + 1, List.replicate zeros (blockSig paddedHash [0]) ++ [blockSig paddedHash [1]]⟩ := by
  have size : ((readBlocks 1 (zerosThenOne zeros)).map List.length).sum = zeros + 1 := by
    rw [sum_readBlocks 1 _ (by decide)]
    simp [zerosThenOne]
  simp only [signatures, size]
  simp [readBlocks_one, zerosThenOne]

theorem candidates_one (zeros : Nat) :
    (signatures paddedHash (zerosThenOne zeros) 1).candidates (Rolling.new [1]).digest = [UInt32.ofNat zeros] := by
  have differs : (blockSig paddedHash [0]).weak ≠ (Rolling.new [1]).digest := by decide +kernel
  have agrees : (blockSig paddedHash [1]).weak = (Rolling.new [1]).digest := by decide +kernel
  have full : FileSignature.blockLen ⟨1, zeros + 1, List.replicate zeros (blockSig paddedHash [0]) ++
      [blockSig paddedHash [1]]⟩ zeros = 1 := by
    simp [FileSignature.blockLen]
  rw [zerosThenOne_signatures, FileSignature.candidates, List.zipIdx_append, List.filter_append, List.map_append]
  have passed : ∀ entry ∈ (List.replicate zeros (blockSig paddedHash [0])).zipIdx,
      entry.1.weak ≠ (Rolling.new [1]).digest := by
    intro entry member
    rw [List.eq_of_mem_replicate (List.fst_mem_of_mem_zipIdx member)]
    exact differs
  rw [List.filter_eq_nil_iff.mpr]
  · simp [full, agrees]
  · intro entry member
    simp [passed entry member]

theorem matched_one (zeros : Nat) (small : zeros < 2 ^ 32) :
    matched paddedHash (signatures paddedHash (zerosThenOne zeros) 1) (.new [1]) [1] = some (UInt32.ofNat zeros) := by
  have index : (UInt32.ofNat zeros).toNat = zeros := UInt32.toNat_ofNat_of_lt' small
  have agrees : (signatures paddedHash (zerosThenOne zeros) 1).strongAt (UInt32.ofNat zeros) = some (paddedHash [1]) := by
    rw [zerosThenOne_signatures, FileSignature.strongAt, index, List.getElem?_append_right (by simp)]
    simp [blockSig]
  rw [matched, candidates_one]
  simp [agrees]

theorem matched_zero (zeros : Nat) :
    matched paddedHash (signatures paddedHash (zerosThenOne (zeros + 1)) 1) (.new [0]) [0] = some 0 := by
  have agrees : (blockSig paddedHash [0]).weak = (Rolling.new [0]).digest := by decide +kernel
  have offered : ∃ more, (signatures paddedHash (zerosThenOne (zeros + 1)) 1).candidates (Rolling.new [0]).digest =
      0 :: more := by
    rw [zerosThenOne_signatures, FileSignature.candidates, List.replicate_succ, List.cons_append, List.zipIdx_cons,
      List.filter_cons_of_pos, List.map_cons]
    · exact ⟨_, rfl⟩
    · simp [FileSignature.blockLen, agrees]
  have strong : (signatures paddedHash (zerosThenOne (zeros + 1)) 1).strongAt 0 = some (paddedHash [0]) := by
    rw [zerosThenOne_signatures, FileSignature.strongAt, List.replicate_succ]
    rfl
  obtain ⟨more, offered⟩ := offered
  rw [matched, offered, List.find?_cons_of_pos]
  simp [strong]

theorem ofNat_wraps {count : Nat} (wraps : count + 1 = 2 ^ 32) : UInt32.ofNat count + 1 = 0 := by
  apply UInt32.toNat_inj.mp
  rw [UInt32.toNat_add, UInt32.toNat_ofNat_of_lt' (by rw [UInt32.size]; omega), UInt32.toNat_one, wraps]
  rfl

theorem delta_one_zero (zeros : Nat) (wraps : zeros + 2 = 2 ^ 32) :
    deltaFromBytes paddedHash [1, 0] (signatures paddedHash (zerosThenOne (zeros + 1)) 1) =
      [.copy (UInt32.ofNat (zeros + 1)) 2] := by
  have first := matched_one (zeros + 1) (by omega)
  have second := matched_zero zeros
  have next := ofNat_wraps wraps
  have size : (signatures paddedHash (zerosThenOne (zeros + 1)) 1).blockSize = 1 := rfl
  have last : (signatures paddedHash (zerosThenOne (zeros + 1)) 1).tailBlock = none := by
    rw [zerosThenOne_signatures]
    simp [FileSignature.tailBlock, FileSignature.blockLen]
  generalize signatures paddedHash (zerosThenOne (zeros + 1)) 1 = sig at *
  generalize UInt32.ofNat (zeros + 1) = final at *
  have some_ : sig.blocks ≠ [] := by
    intro none
    simp [matched, FileSignature.candidates, none] at second
  rw [deltaFromBytes, if_neg (by simp [size, some_]), if_pos (by simp [size]), scan]
  simp only [size, List.take_succ_cons, List.take_zero, first, Nat.sub_self, List.drop_zero, List.length_singleton,
    Nat.lt_irrefl, if_false]
  rw [scan]
  simp [size, second, flushLiteral, pushCopy, next, finish, last]

theorem apply_one_zero (zeros : Nat) (wraps : zeros + 2 = 2 ^ 32) :
    applyDelta "disk.img" (zerosThenOne (zeros + 1)) 1 [.copy (UInt32.ofNat (zeros + 1)) 2] =
      .error (pastEnd "disk.img" (UInt32.ofNat (zeros + 1) + 1)) := by
  have index : (UInt32.ofNat (zeros + 1)).toNat = zeros + 1 :=
    UInt32.toNat_ofNat_of_lt' (by rw [UInt32.size]; omega)
  have one : (zerosThenOne (zeros + 1)).drop (zeros + 1) = [1] := by
    rw [zerosThenOne, List.drop_left' List.length_replicate]
  have none : (zerosThenOne (zeros + 1)).drop (zeros + 1 + 1) = [] := by
    rw [List.drop_eq_nil_iff, zerosThenOne]
    simp
  simp only [applyDelta, applyOp, List.foldlM_cons, List.foldlM_nil, bind_pure]
  simp only [show (2 : UInt32).toNat = 2 from rfl, List.range_succ, List.range_zero, List.nil_append, List.cons_append,
    List.foldlM_cons, List.foldlM_nil, bind_pure, copyBlock, index, Nat.mul_one, Nat.add_zero, one, none]
  rfl

/-- With `2 ^ 32` blocks of one byte, a match of the last block followed by a match of
the first one is merged, and the copy runs past the end of the base. -/
theorem last_block_wraps :
    NoCollision paddedHash (zerosThenOne (2 ^ 32 - 1)) [1, 0] 1 ∧
    applyDelta "disk.img" (zerosThenOne (2 ^ 32 - 1)) 1
      (deltaFromBytes paddedHash [1, 0] (signatures paddedHash (zerosThenOne (2 ^ 32 - 1)) 1)) ≠ .ok [1, 0] := by
  obtain ⟨zeros, wraps⟩ : ∃ zeros, zeros + 2 = 2 ^ 32 := ⟨2 ^ 32 - 2, rfl⟩
  rw [show 2 ^ 32 - 1 = zeros + 1 by omega, delta_one_zero zeros wraps, apply_one_zero zeros wraps]
  exact ⟨paddedHash_noCollision _ _ (by decide), nofun⟩

end Replication
