import WolfStack.Replication.Encoding
import WolfStack.Replication.Exact
import Mathlib.Data.List.Forall2

/-! The wire form of a signature, after `wolfha/replication/rolling.rs`. Decoding gives
back a signature of the same file, short of the blocks that its count does not cover. -/

namespace Replication
open Wire

def encodeBlock (sig : BlockSig) : Bytes := leBytes 4 sig.weak.toNat ++ sig.strong.bytes

def encodeSignatures (sig : FileSignature) : Bytes :=
  leBytes 4 sig.blockSize ++ leBytes 8 sig.baseLen ++ leBytes 4 sig.blocks.length ++ sig.blocks.flatMap encodeBlock

def signatureHeader : Nat := 4 + 8 + 4

def signatureRecord : Nat := 4 + strongLen

/-- `copy_from_slice` panics unless the lengths agree. -/
def decodeBlock (buf : Bytes) (o : Nat) : Except Fault BlockSig := do
  let weak ← readLe buf o 4
  let strong ← slice buf (o + 4) (o + 4 + strongLen)
  if size : strong.length = strongLen then .ok ⟨UInt32.ofNat weak, strong, size⟩ else .error .panic

def truncatedFor (size count need : Nat) : String :=
  "signature payload truncated: " ++ toString size ++ " bytes for " ++ toString count ++ " blocks (need " ++
    toString need ++ ")"

def decodeSignatures (buf : Bytes) : Except Fault FileSignature :=
  if buf.length < signatureHeader then .error (.error "signature payload truncated")
  else do
    let blockSize ← readLe buf 0 4
    let baseLen ← readLe buf 4 8
    let count ← readLe buf 12 4
    if blockSize = 0 then .error (.error "signature payload declares a zero block size")
    else if 2 ^ 64 ≤ count * signatureRecord then .error (.error "signature count overflows")
    else if 2 ^ 64 ≤ signatureHeader + count * signatureRecord then .error (.error "signature length overflows")
    else if buf.length < signatureHeader + count * signatureRecord then
      .error (.error (truncatedFor buf.length count (signatureHeader + count * signatureRecord)))
    else do
      let blocks ← (List.range count).mapM fun i => decodeBlock buf (signatureHeader + i * signatureRecord)
      .ok ⟨blockSize, baseLen, blocks⟩

theorem decodeBlock_returns {buf : Bytes} {o : Nat} (room : o + signatureRecord ≤ buf.length) :
    Returns (decodeBlock buf o) := by
  rw [signatureRecord] at room
  refine (readLe_returns (by omega)).bind fun weak _ => (slice_returns (by omega)).bind fun strong read => ?_
  have size := ((slice_ok_iff (by omega)).mp read).1
  rw [dif_pos size]
  exact returns_ok _

theorem mapM_returns {α β : Type} {items : List α} {read : α → Except Fault β}
    (each : ∀ item ∈ items, Returns (read item)) : Returns (items.mapM read) := by
  induction items with
  | nil => exact returns_ok _
  | cons item rest ih =>
    rw [List.mapM_cons]
    refine (each item List.mem_cons_self).bind fun first _ => Returns.bind ?_ fun later _ => returns_ok _
    exact ih fun other member => each other (List.mem_cons_of_mem item member)

theorem decodeSignatures_returns (buf : Bytes) : Returns (decodeSignatures buf) := by
  rw [decodeSignatures]
  split
  · exact returns_error _
  · rename_i header
    rw [signatureHeader] at header
    refine (readLe_returns (by omega)).bind fun blockSize _ => (readLe_returns (by omega)).bind fun baseLen _ =>
      (readLe_returns (by omega)).bind fun count _ => ?_
    split
    · exact returns_error _
    · split
      · exact returns_error _
      · split
        · exact returns_error _
        · split
          · exact returns_error _
          · rename_i room
            refine (mapM_returns fun i member => decodeBlock_returns ?_).bind fun blocks _ => returns_ok _
            have inside : (i + 1) * signatureRecord ≤ count * signatureRecord :=
              Nat.mul_le_mul_right _ (List.mem_range.mp member)
            rw [Nat.succ_mul] at inside
            omega

theorem length_encodeBlock (sig : BlockSig) : (encodeBlock sig).length = signatureRecord := by
  rw [encodeBlock, List.length_append, length_leBytes, sig.strong.size, signatureRecord]

theorem drop_encodeBlocks (blocks : List BlockSig) (i : Nat) :
    (blocks.flatMap encodeBlock).drop (i * signatureRecord) = (blocks.drop i).flatMap encodeBlock := by
  induction blocks generalizing i with
  | nil => simp
  | cons first rest ih =>
    cases i with
    | zero => simp
    | succ i =>
      rw [List.flatMap_cons, List.drop_succ_cons, ← ih, Nat.succ_mul, Nat.add_comm, ← List.drop_drop,
        List.drop_left' (length_encodeBlock first)]

theorem decodeBlock_encodeBlock {buf rest : Bytes} {o : Nat} {sig : BlockSig} (inside : o ≤ buf.length)
    (written : buf.drop o = encodeBlock sig ++ rest) : decodeBlock buf o = .ok sig := by
  have there : encodeBlock sig <+: buf.drop o := ⟨rest, written.symm⟩
  have size := there.length_le
  rw [length_encodeBlock, List.length_drop, signatureRecord] at size
  rw [encodeBlock, prefix_append_iff, length_leBytes, List.drop_drop] at there
  have weak := (readLe_ok_iff inside).mpr ⟨sig.weak.toNat_lt, there.1⟩
  have strong := (slice_ok_iff (by omega)).mpr ⟨sig.strong.size, there.2⟩
  rw [decodeBlock, weak]
  simp only [bind, Except.bind]
  rw [strong]
  simp only [sig.strong.size, dif_pos, UInt32.ofNat_toNat]

theorem mapM_ok {α β : Type} {items : List α} {results : List β} {read : α → Except Fault β}
    (each : List.Forall₂ (fun item result => read item = .ok result) items results) : items.mapM read = .ok results := by
  induction each with
  | nil => rfl
  | cons first rest ih =>
    rw [List.mapM_cons, first]
    simp only [bind, Except.bind]
    rw [ih]
    rfl

theorem length_encodeBlocks (blocks : List BlockSig) :
    (blocks.flatMap encodeBlock).length = blocks.length * signatureRecord := by
  induction blocks with
  | nil => simp
  | cons first rest ih =>
    rw [List.flatMap_cons, List.length_append, length_encodeBlock, ih, List.length_cons, Nat.succ_mul, Nat.add_comm]

theorem decodeBlocks {buf header : Bytes} {blocks : List BlockSig} {count : Nat} (size : header.length = signatureHeader)
    (written : buf = header ++ blocks.flatMap encodeBlock) (within : count ≤ blocks.length) :
    ((List.range count).mapM fun i => decodeBlock buf (signatureHeader + i * signatureRecord)) = .ok (blocks.take count) := by
  apply mapM_ok
  rw [List.forall₂_iff_get]
  refine ⟨by simp [Nat.min_eq_left within], fun i first second => ?_⟩
  rw [List.length_range] at first
  have inside : i < blocks.length := Nat.lt_of_lt_of_le first within
  have reach : i * signatureRecord ≤ blocks.length * signatureRecord := Nat.mul_le_mul_right _ (by omega)
  simp only [List.get_eq_getElem, List.getElem_range, List.getElem_take]
  have start : signatureHeader + i * signatureRecord ≤ buf.length := by
    rw [written, List.length_append, size, length_encodeBlocks]
    omega
  have here : buf.drop (signatureHeader + i * signatureRecord) =
      encodeBlock blocks[i] ++ (blocks.drop (i + 1)).flatMap encodeBlock := by
    rw [written, ← List.drop_drop, List.drop_left' size, drop_encodeBlocks, List.drop_eq_getElem_cons inside,
      List.flatMap_cons]
  exact decodeBlock_encodeBlock start here

theorem decode_encodeSignatures (sig : FileSignature) (positive : 0 < sig.blockSize) (small : sig.blockSize < 2 ^ 32)
    (word : sig.baseLen < 2 ^ 64) :
    decodeSignatures (encodeSignatures sig) = .ok { sig with blocks := sig.blocks.take (sig.blocks.length % 2 ^ 32) } := by
  have size : (encodeSignatures sig).length = signatureHeader + sig.blocks.length * signatureRecord := by
    simp only [encodeSignatures, List.length_append, length_leBytes, length_encodeBlocks, signatureHeader]
  have fits : sig.blocks.length % 2 ^ 32 * signatureRecord ≤ sig.blocks.length * signatureRecord :=
    Nat.mul_le_mul_right _ (Nat.mod_le _ _)
  have blocks : ((List.range (sig.blocks.length % 2 ^ 32)).mapM fun i =>
      decodeBlock (encodeSignatures sig) (signatureHeader + i * signatureRecord)) = .ok (sig.blocks.take _) :=
    decodeBlocks (by simp [signatureHeader]) rfl (Nat.mod_le sig.blocks.length (2 ^ 32))
  have blockSize : readLe (encodeSignatures sig) 0 4 = .ok sig.blockSize := by
    have written : leBytes 4 sig.blockSize <+: (encodeSignatures sig).drop 0 := by simp [encodeSignatures]
    rw [readLe_leBytes (Nat.zero_le _) written, Nat.mod_eq_of_lt (by omega)]
  have baseLen : readLe (encodeSignatures sig) 4 8 = .ok sig.baseLen := by
    have written : leBytes 8 sig.baseLen <+: (encodeSignatures sig).drop 4 := by
      simp only [encodeSignatures, List.append_assoc]
      rw [List.drop_left' (length_leBytes 4 _)]
      exact List.prefix_append _ _
    rw [readLe_leBytes (by rw [size, signatureHeader]; omega) written, Nat.mod_eq_of_lt (by omega)]
  have count : readLe (encodeSignatures sig) 12 4 = .ok (sig.blocks.length % 2 ^ 32) := by
    have written : leBytes 4 sig.blocks.length <+: (encodeSignatures sig).drop 12 := by
      simp only [encodeSignatures, List.append_assoc]
      rw [show 12 = 4 + 8 by rfl, ← List.drop_drop, List.drop_left' (length_leBytes 4 _),
        List.drop_left' (length_leBytes 8 _)]
      exact List.prefix_append _ _
    exact readLe_leBytes (by rw [size, signatureHeader]; omega) written
  have bounded : sig.blocks.length % 2 ^ 32 < 2 ^ 32 := Nat.mod_lt _ (by decide)
  rw [decodeSignatures, if_neg (by omega), blockSize]
  simp only [bind, Except.bind]
  rw [baseLen]
  dsimp only
  rw [count]
  dsimp only
  rw [if_neg (by omega), if_neg (by rw [signatureRecord, strongLen]; omega),
    if_neg (by rw [signatureRecord, strongLen, signatureHeader]; omega), if_neg (by omega), blocks]

theorem decoded_describes (strongHash : Bytes → Digest) {base : Bytes} {blockSize : Nat} {sig : FileSignature}
    (positive : 0 < blockSize) (small : blockSize < 2 ^ 32) (word : base.length < 2 ^ 64)
    (decoded : decodeSignatures (encodeSignatures (signatures strongHash base blockSize)) = .ok sig) :
    Describes strongHash base sig := by
  have baseLen : (signatures strongHash base blockSize).baseLen = base.length := sum_readBlocks blockSize base positive
  rw [decode_encodeSignatures _ positive small (baseLen ▸ word), Except.ok.injEq] at decoded
  subst decoded
  exact signatures_take_describes strongHash base positive (Nat.mod_lt _ (by decide))

end Replication
