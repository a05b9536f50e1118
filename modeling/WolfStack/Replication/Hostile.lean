import WolfStack.Replication.Bundle
import WolfStack.Replication.SignatureWire

/-! Payloads from a peer: decoding never panics, except where the length that a bundle
gives for a file's instructions takes the offset past the last machine word. -/

namespace Replication
open Wire

def Overlong (buf : Bytes) : Prop :=
  ∃ (items : List FileDelta) (path : String) (olen : Nat) (rest : Bytes),
    (∀ item ∈ items, item.Fits) ∧ (utf8 path).length < 2 ^ 32 ∧ olen < 2 ^ 64 ∧
    packFileDeltas items ++ (frameHeader path olen ++ rest) = buf ∧
    2 ^ 64 ≤ (packFileDeltas items ++ frameHeader path olen).length + olen

theorem length_frameHeader (path : String) (olen : Nat) : (frameHeader path olen).length = 4 + (utf8 path).length + 8 := by
  simp only [frameHeader, List.length_append, length_leBytes]

theorem unpackFile_returns_iff {buf : Bytes} {i : Nat} (short : buf.length < maxBytes) (inside : i ≤ buf.length) :
    Returns (unpackFile buf i) ↔ ∀ path olen, (utf8 path).length < 2 ^ 32 → olen < 2 ^ 64 →
      frameHeader path olen <+: buf.drop i → i + (frameHeader path olen).length + olen < 2 ^ 64 := by
  constructor
  · intro returns path olen fits word written
    rw [frameHeader, prefix_append_iff, List.length_append, length_leBytes, List.drop_drop] at written
    have size := written.1.length_le
    simp only [List.length_append, length_leBytes, List.length_drop] at size
    have first := (unpackPath_ok_iff short inside).mpr ⟨fits, rfl, written.1⟩
    rw [unpackFile, first] at returns
    have later : Returns (unpackOps path buf (i + 4 + (utf8 path).length)) := returns
    have fine := (unpackOps_returns_iff short (by omega)).mp later olen word (by simpa only [Nat.add_assoc] using written.2)
    rw [length_frameHeader]
    omega
  · intro fine
    refine (unpackPath_returns short inside).bind fun read first => ?_
    obtain ⟨path, next⟩ := read
    obtain ⟨fits, rfl, written⟩ := (unpackPath_ok_iff short inside).mp first
    have size := written.length_le
    simp only [List.length_append, length_leBytes, List.length_drop] at size
    refine (unpackOps_returns_iff short (by omega)).mpr fun olen word hasLen => ?_
    have header : frameHeader path olen <+: buf.drop i := by
      rw [frameHeader, prefix_append_iff, List.length_append, length_leBytes, List.drop_drop]
      exact ⟨written, by simpa only [Nat.add_assoc] using hasLen⟩
    have within := fine path olen fits word header
    rw [length_frameHeader] at within
    omega

theorem unpackFileDeltas_returns_iff {buf : Bytes} (short : buf.length < maxBytes) :
    Returns (unpackFileDeltas buf) ↔ ¬Overlong buf := by
  rw [unpackFileDeltas, readAll_returns_iff unpackFile_inverts short]
  constructor
  · rintro each ⟨items, path, olen, rest, fitting, fits, word, rfl, past⟩
    have size : (packFileDeltas items ++ (frameHeader path olen ++ rest)).length -
        (frameHeader path olen ++ rest).length = (packFileDeltas items).length := by
      rw [List.length_append, Nat.add_sub_cancel]
    have some_ : frameHeader path olen ++ rest ≠ [] := by
      intro empty
      have none := congrArg List.length empty
      rw [List.length_append, length_frameHeader, List.length_nil] at none
      omega
    have returns := each items (frameHeader path olen ++ rest) fitting some_ rfl
    rw [size, unpackFile_returns_iff short (by simp)] at returns
    have within := returns path olen fits word (by rw [List.drop_left]; exact List.prefix_append _ _)
    rw [List.length_append] at past
    omega
  · rintro fine items rest fitting some_ rfl
    have size : (items.flatMap packFile ++ rest).length - rest.length = (packFileDeltas items).length := by
      rw [List.length_append, Nat.add_sub_cancel, packFileDeltas]
    rw [size, unpackFile_returns_iff short (by simp [packFileDeltas])]
    intro path olen fits word written
    by_contra past
    rw [packFileDeltas, List.drop_left] at written
    obtain ⟨more, rfl⟩ := written
    refine fine ⟨items, path, olen, more, fitting, fits, word, rfl, ?_⟩
    rw [List.length_append]
    omega

/-- Decoding what a peer sends ends in a value or an error exactly when no ops length
overflows the offset. -/
theorem hostile_returns_iff (buf : Bytes) (memory : buf.length < maxBytes) :
    (Returns (unpackFileDeltas buf) ∧ Returns (decodeDelta buf) ∧ Returns (decodeSignatures buf)) ↔ ¬Overlong buf := by
  rw [unpackFileDeltas_returns_iff memory]
  exact and_iff_left ⟨decodeDelta_returns memory, decodeSignatures_returns buf⟩

theorem hostile_returns_sample :
    (Returns (unpackFileDeltas [1, 0, 0, 0, 97]) ∧ Returns (decodeDelta [1, 0, 0, 0, 97]) ∧
      Returns (decodeSignatures [1, 0, 0, 0, 97])) ↔ ¬Overlong [1, 0, 0, 0, 97] :=
  hostile_returns_iff [1, 0, 0, 0, 97] (by decide)

/-- A path of one letter, and an ops length of eight bytes of ones. -/
theorem ones_panic :
    unpackFileDeltas [1, 0, 0, 0, 97, 255, 255, 255, 255, 255, 255, 255, 255] = .error .panic := by
  decide +kernel

end Replication
