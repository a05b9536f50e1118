import WolfStack.Replication.Encoding

/-! Bundles of per-file deltas, after `wolfha/replication/rolling.rs`: what a bundle
unpacks to, and when unpacking panics. -/

namespace Replication
open Wire

structure FileDelta where
  path : String
  ops : List DeltaOp
deriving DecidableEq

def utf8 (path : String) : Bytes := path.toByteArray.data.toList

def fromUtf8 (bytes : Bytes) : Option String := String.fromUTF8? ⟨bytes.toArray⟩

def frameHeader (path : String) (opsLen : Nat) : Bytes := leBytes 4 (utf8 path).length ++ utf8 path ++ leBytes 8 opsLen

def packFile (item : FileDelta) : Bytes :=
  frameHeader item.path (encodeDelta item.ops).length ++ encodeDelta item.ops

def packFileDeltas (items : List FileDelta) : Bytes := items.flatMap packFile

def unpackOps (path : String) (buf : Bytes) (i : Nat) : Except Fault (FileDelta × Nat) :=
  if buf.length < advance i 8 then .error (.error "delta bundle truncated in an ops header")
  else do
    let olen ← readLe buf i 8
    let i := advance i 8
    if buf.length < advance i olen then .error (.error "delta bundle truncated in an ops body")
    else do
      let body ← slice buf i (advance i olen)
      let ops ← decodeDelta body
      .ok (⟨path, ops⟩, advance i olen)

def unpackPath (buf : Bytes) (i : Nat) : Except Fault (String × Nat) :=
  if buf.length < advance i 4 then .error (.error "delta bundle truncated in a path header")
  else do
    let plen ← readLe buf i 4
    let i := advance i 4
    if buf.length < advance i plen then .error (.error "delta bundle truncated in a path")
    else do
      let bytes ← slice buf i (advance i plen)
      match fromUtf8 bytes with
      | none => .error (.error "delta bundle contains a non-UTF-8 path")
      | some path => .ok (path, advance i plen)

/-- One turn of the loop of `unpack_file_deltas`. -/
def unpackFile (buf : Bytes) (i : Nat) : Except Fault (FileDelta × Nat) := do
  let (path, i) ← unpackPath buf i
  unpackOps path buf i

def unpackFileDeltas (buf : Bytes) : Except Fault (List FileDelta) := readAll unpackFile buf

structure FileDelta.Fits (item : FileDelta) : Prop where
  path : (utf8 item.path).length < 2 ^ 32
  ops : ∀ op ∈ item.ops, op.Fits

theorem FileDelta.fits_of_short {item : FileDelta} (path : (utf8 item.path).length < 2 ^ 32)
    (short : (encodeDelta item.ops).length < 2 ^ 32) (copies : ∀ index count, .copy index count ∈ item.ops → count ≠ 0) :
    item.Fits := by
  refine ⟨path, fun op member => ?_⟩
  cases op with
  | copy index count => exact copies index count member
  | literal bytes =>
    have size := length_encodeOp_le member
    simp only [encodeOp, List.length_cons, List.length_append] at size
    show bytes.length < 2 ^ 32
    omega

theorem fromUtf8_eq_some_iff {bytes : Bytes} {path : String} : fromUtf8 bytes = some path ↔ utf8 path = bytes := by
  rw [fromUtf8, String.fromUTF8?]
  constructor
  · intro read
    split at read
    · cases read
      rfl
    · cases read
  · rintro rfl
    have same : (⟨(utf8 path).toArray⟩ : ByteArray) = path.toByteArray := by
      simp [utf8]
    rw [dif_pos (same ▸ path.isValidUTF8)]
    exact congrArg some (String.toByteArray_inj.mp same)

section

variable {buf : Bytes} {i next : Nat} {path : String} {item : FileDelta}

theorem unpackPath_ok_iff (short : buf.length < maxBytes) (inside : i ≤ buf.length) :
    unpackPath buf i = .ok (path, next) ↔ (utf8 path).length < 2 ^ 32 ∧ next = i + 4 + (utf8 path).length ∧
      leBytes 4 (utf8 path).length ++ utf8 path <+: buf.drop i := by
  rw [maxBytes] at short
  rw [unpackPath, advance_eq (by omega)]
  constructor
  · intro read
    split at read
    · cases read
    · rename_i header
      obtain ⟨plen, first, read⟩ := bind_ok_iff.mp read
      obtain ⟨small, hasLen⟩ := (readLe_ok_iff inside).mp first
      dsimp only at read
      rw [advance_eq (by omega)] at read
      split at read
      · cases read
      · rename_i room
        obtain ⟨bytes, second, read⟩ := bind_ok_iff.mp read
        obtain ⟨rfl, hasBytes⟩ := (slice_ok_iff (by omega)).mp second
        split at read
        · cases read
        · rename_i valid
          cases read
          obtain rfl := fromUtf8_eq_some_iff.mp valid
          refine ⟨small, rfl, ?_⟩
          rw [prefix_append_iff, length_leBytes, List.drop_drop]
          exact ⟨hasLen, hasBytes⟩
  · rintro ⟨small, rfl, written⟩
    have size := written.length_le
    simp only [List.length_append, length_leBytes, List.length_drop] at size
    rw [prefix_append_iff, length_leBytes, List.drop_drop] at written
    have first := (readLe_ok_iff inside).mpr ⟨small, written.1⟩
    have second := (slice_ok_iff (by omega)).mpr ⟨rfl, written.2⟩
    rw [if_neg (by omega), first]
    simp only [bind, Except.bind]
    rw [advance_eq (by omega), if_neg (by omega), second]
    dsimp only
    rw [fromUtf8_eq_some_iff.mpr rfl]

theorem unpackPath_returns (short : buf.length < maxBytes) (inside : i ≤ buf.length) : Returns (unpackPath buf i) := by
  rw [maxBytes] at short
  rw [unpackPath, advance_eq (by omega)]
  split
  · exact returns_error _
  · refine (readLe_returns (by omega)).bind fun plen read => ?_
    have small := ((readLe_ok_iff inside).mp read).1
    dsimp only
    rw [advance_eq (by omega)]
    split
    · exact returns_error _
    · refine (slice_returns (by omega)).bind fun bytes _ => ?_
      split
      · exact returns_error _
      · exact returns_ok _

theorem slice_panics {olen : Nat} (inside : i < 2 ^ 64) (word : olen < 2 ^ 64) (past : 2 ^ 64 ≤ i + olen) :
    slice buf i (advance i olen) = .error .panic := by
  have below := advance_lt inside word past
  rw [slice, if_neg (by omega)]

theorem unpackOps_ok_iff (short : buf.length < maxBytes) (inside : i ≤ buf.length) :
    unpackOps path buf i = .ok (item, next) ↔ item.path = path ∧ (∀ op ∈ item.ops, op.Fits) ∧
      next = i + 8 + (encodeDelta item.ops).length ∧
      leBytes 8 (encodeDelta item.ops).length ++ encodeDelta item.ops <+: buf.drop i := by
  have small := short
  rw [maxBytes] at small
  rw [unpackOps, advance_eq (by omega)]
  constructor
  · intro read
    split at read
    · cases read
    · rename_i header
      obtain ⟨olen, first, read⟩ := bind_ok_iff.mp read
      obtain ⟨word, hasLen⟩ := (readLe_ok_iff inside).mp first
      dsimp only at read
      split at read
      · cases read
      · rename_i room
        obtain ⟨body, second, read⟩ := bind_ok_iff.mp read
        obtain ⟨ops, decoded, read⟩ := bind_ok_iff.mp read
        cases read
        by_cases past : 2 ^ 64 ≤ i + 8 + olen
        · rw [slice_panics (by omega) (by omega) past] at second
          cases second
        · rw [advance_eq (by omega)] at room second ⊢
          obtain ⟨rfl, hasBody⟩ := (slice_ok_iff (by omega)).mp second
          have within := hasBody.length_le
          rw [List.length_drop] at within
          obtain ⟨fits, rfl⟩ := (decodeDelta_ok_iff (by rw [maxBytes]; omega)).mp decoded
          refine ⟨rfl, fits, rfl, ?_⟩
          rw [prefix_append_iff, length_leBytes, List.drop_drop]
          exact ⟨hasLen, hasBody⟩
  · rintro ⟨rfl, fits, rfl, written⟩
    have size := written.length_le
    simp only [List.length_append, length_leBytes, List.length_drop] at size
    rw [prefix_append_iff, length_leBytes, List.drop_drop] at written
    have first := (readLe_ok_iff inside).mpr ⟨by omega, written.1⟩
    have second := (slice_ok_iff (by omega)).mpr ⟨rfl, written.2⟩
    have decoded := (decodeDelta_ok_iff (by rw [maxBytes]; omega)).mpr ⟨fits, rfl⟩
    rw [if_neg (by omega), first]
    simp only [bind, Except.bind]
    rw [advance_eq (by omega), if_neg (by omega), second]
    dsimp only
    rw [decoded]

theorem unpackOps_returns_iff (short : buf.length < maxBytes) (inside : i ≤ buf.length) :
    Returns (unpackOps path buf i) ↔ ∀ olen < 2 ^ 64, leBytes 8 olen <+: buf.drop i → i + 8 + olen < 2 ^ 64 := by
  have small := short
  rw [maxBytes] at small
  rw [unpackOps, advance_eq (by omega)]
  constructor
  · intro returns olen word hasLen
    by_contra past
    have size := hasLen.length_le
    rw [length_leBytes, List.length_drop] at size
    have first := (readLe_ok_iff inside).mpr ⟨by omega, hasLen⟩
    have below : advance (i + 8) olen < i + 8 := advance_lt (by omega) word (by omega)
    rw [if_neg (by omega), first] at returns
    simp only [bind, Except.bind] at returns
    rw [if_neg (by omega), slice_panics (by omega) word (by omega)] at returns
    exact returns.1 rfl
  · intro fine
    split
    · exact returns_error _
    · rename_i header
      refine (readLe_returns (by omega)).bind fun olen read => ?_
      obtain ⟨word, hasLen⟩ := (readLe_ok_iff inside).mp read
      have within := fine olen (by omega) hasLen
      dsimp only
      rw [advance_eq (by omega)]
      split
      · exact returns_error _
      · refine (slice_returns (by omega)).bind fun body sliced => ?_
        obtain ⟨-, hasBody⟩ := (slice_ok_iff (by omega)).mp sliced
        have bodySize := hasBody.length_le
        rw [List.length_drop] at bodySize
        exact (decodeDelta_returns (by rw [maxBytes]; omega)).bind fun ops _ => returns_ok _

end

theorem packFile_eq (item : FileDelta) : packFile item = (leBytes 4 (utf8 item.path).length ++ utf8 item.path) ++
    (leBytes 8 (encodeDelta item.ops).length ++ encodeDelta item.ops) := by
  simp [packFile, frameHeader]

theorem unpackFile_inverts : Inverts maxBytes unpackFile packFile FileDelta.Fits where
  nonempty := by
    intro item empty
    have size := congrArg List.length empty
    simp [packFile, frameHeader] at size
  ok_iff := by
    intro buf offset item next short inside
    have small := short
    rw [maxBytes] at small
    rw [packFile_eq, unpackFile, bind_ok_iff, prefix_append_iff, List.drop_drop]
    constructor
    · rintro ⟨⟨path, middle⟩, first, second⟩
      obtain ⟨pathFits, rfl, hasPath⟩ := (unpackPath_ok_iff short (by omega)).mp first
      have size := hasPath.length_le
      simp only [List.length_append, length_leBytes, List.length_drop] at size
      obtain ⟨rfl, opsFit, rfl, hasOps⟩ := (unpackOps_ok_iff short (by omega)).mp second
      refine ⟨⟨pathFits, opsFit⟩, ?_, hasPath, ?_⟩
      · simp only [List.length_append, length_leBytes]
        omega
      · simpa only [List.length_append, length_leBytes, Nat.add_assoc] using hasOps
    · rintro ⟨fits, rfl, hasPath, hasOps⟩
      have size := hasPath.length_le
      simp only [List.length_append, length_leBytes, List.length_drop] at size
      simp only [List.length_append, length_leBytes] at hasOps ⊢
      refine ⟨(item.path, offset + 4 + (utf8 item.path).length), (unpackPath_ok_iff short (by omega)).mpr
        ⟨fits.path, rfl, hasPath⟩, ?_⟩
      refine (unpackOps_ok_iff short (by omega)).mpr ⟨rfl, fits.ops, by omega, ?_⟩
      simpa only [Nat.add_assoc] using hasOps

theorem unpackFileDeltas_ok_iff {buf : Bytes} {items : List FileDelta} (short : buf.length < maxBytes) :
    unpackFileDeltas buf = .ok items ↔ (∀ item ∈ items, item.Fits) ∧ packFileDeltas items = buf :=
  readAll_ok_iff unpackFile_inverts short

/-- Unpacking undoes packing exactly when every length fits its field and no copy is
empty. -/
theorem unpack_pack_iff (items : List FileDelta) (memory : (packFileDeltas items).length < maxBytes) :
    unpackFileDeltas (packFileDeltas items) = .ok items ↔ ∀ item ∈ items, item.Fits := by
  rw [unpackFileDeltas_ok_iff memory]
  exact and_iff_left rfl

theorem unpack_pack_sample :
    unpackFileDeltas (packFileDeltas [⟨"var/db", [.copy 3 2, .literal [1, 2, 3]]⟩, ⟨"log", []⟩]) =
      .ok [⟨"var/db", [.copy 3 2, .literal [1, 2, 3]]⟩, ⟨"log", []⟩] := by
  refine (unpack_pack_iff _ (by decide)).mpr ?_
  simp only [List.mem_cons, List.not_mem_nil, or_false, forall_eq_or_imp, forall_eq]
  exact ⟨⟨by decide, by decide⟩, ⟨by decide, by decide⟩⟩

theorem long_literal_lost {data : Bytes} (long : data.length = 2 ^ 32) :
    unpackFileDeltas (packFileDeltas [⟨"f", [.literal data]⟩]) ≠ .ok [⟨"f", [.literal data]⟩] := by
  have memory : (packFileDeltas [⟨"f", [.literal data]⟩]).length < maxBytes := by
    have path : (utf8 "f").length = 1 := by decide
    simp only [packFileDeltas, List.flatMap_cons, List.flatMap_nil, List.append_nil, packFile, frameHeader,
      encodeDelta, encodeOp, List.length_append, length_leBytes, List.length_cons, path, long, maxBytes]
    omega
  intro same
  have fits := ((unpackFileDeltas_ok_iff memory).mp same).1 _ List.mem_cons_self
  have small : data.length < 2 ^ 32 := fits.ops _ List.mem_cons_self
  omega

def anyHash (_ : Bytes) : Digest := ⟨List.replicate strongLen 0, List.length_replicate⟩

/-- Four gibibytes that match nothing: the literal's length is written as zero. -/
theorem four_gibibytes_lost :
    unpackFileDeltas (packFileDeltas [⟨"f", deltaFromBytes anyHash (List.replicate (2 ^ 32) 0) ⟨65536, 0, []⟩⟩]) ≠
      .ok [⟨"f", deltaFromBytes anyHash (List.replicate (2 ^ 32) 0) ⟨65536, 0, []⟩⟩] := by
  have size : (List.replicate (2 ^ 32) (0 : UInt8)).length = 2 ^ 32 := List.length_replicate
  generalize List.replicate (2 ^ 32) (0 : UInt8) = data at size
  have whole : deltaFromBytes anyHash data ⟨65536, 0, []⟩ = [.literal data] := by
    rw [deltaFromBytes, if_pos (.inr rfl), if_neg]
    rw [List.isEmpty_iff_length_eq_zero, size]
    omega
  rw [whole]
  exact long_literal_lost size

end Replication
