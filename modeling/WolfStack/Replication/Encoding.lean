import WolfStack.Wire.Records
import WolfStack.Replication.Delta

/-! The wire form of a delta: one record an instruction, after
`wolfha/replication/rolling.rs`. -/

namespace Replication
open Wire

/-- No `Vec` holds this many bytes. -/
def maxBytes : Nat := 2 ^ 63

def encodeOp : DeltaOp → Bytes
  | .copy index count => 0 :: (leBytes 4 index.toNat ++ leBytes 4 count.toNat)
  | .literal bytes => 1 :: (leBytes 4 bytes.length ++ bytes)

def encodeDelta (ops : List DeltaOp) : Bytes := ops.flatMap encodeOp

def decodeCopy (buf : Bytes) (i : Nat) : Except Fault (DeltaOp × Nat) :=
  if buf.length < advance i 8 then .error (.error "delta truncated in a copy record")
  else do
    let index ← readLe buf i 4
    let count ← readLe buf (i + 4) 4
    if count = 0 then .error (.error "delta contains a zero-length copy")
    else .ok (.copy (UInt32.ofNat index) (UInt32.ofNat count), advance i 8)

def decodeLiteral (buf : Bytes) (i : Nat) : Except Fault (DeltaOp × Nat) :=
  if buf.length < advance i 4 then .error (.error "delta truncated in a literal header")
  else do
    let len ← readLe buf i 4
    let i := advance i 4
    if buf.length < advance i len then .error (.error "delta truncated in a literal body")
    else do
      let bytes ← slice buf i (advance i len)
      .ok (.literal bytes, advance i len)

/-- One turn of the loop of `decode_delta`. -/
def decodeOp (buf : Bytes) (i : Nat) : Except Fault (DeltaOp × Nat) :=
  match buf[i]? with
  | none => .error .panic
  | some 0 => decodeCopy buf (advance i 1)
  | some 1 => decodeLiteral buf (advance i 1)
  | some other => .error (.error ("unknown delta op tag " ++ toString other))

def decodeDelta (buf : Bytes) : Except Fault (List DeltaOp) := readAll decodeOp buf

theorem length_encodeOp_le {ops : List DeltaOp} {op : DeltaOp} (member : op ∈ ops) :
    (encodeOp op).length ≤ (encodeDelta ops).length := by
  rw [encodeDelta, List.flatMap_def]
  exact (List.sublist_flatten_of_mem (List.mem_map_of_mem member)).length_le

theorem length_encodeDelta_pushCopy (ops : List DeltaOp) (index : UInt32) :
    (encodeDelta (pushCopy ops index)).length ≤ (encodeDelta ops).length + 9 := by
  have record (first count : UInt32) : (encodeOp (.copy first count)).length = 9 := by
    simp [encodeOp, length_leBytes]
  have appended (before : List DeltaOp) (first count : UInt32) :
      (encodeDelta (before ++ [.copy first count])).length = (encodeDelta before).length + 9 := by
    simp [encodeDelta, record]
  rw [pushCopy]
  split
  · rename_i pi count last
    have split := congrArg (fun ops => (encodeDelta ops).length) (List.dropLast_append_getLast? _ last)
    simp only [appended] at split
    split
    · rw [appended]
      omega
    · exact Nat.le_of_eq (appended ops index 1)
  · exact Nat.le_of_eq (appended ops index 1)

def DeltaOp.Fits : DeltaOp → Prop
  | .copy _ count => count ≠ 0
  | .literal bytes => bytes.length < 2 ^ 32

instance : DecidablePred DeltaOp.Fits
  | .copy _ count => inferInstanceAs (Decidable (count ≠ 0))
  | .literal bytes => inferInstanceAs (Decidable (bytes.length < 2 ^ 32))

section

variable {buf : Bytes} {i next : Nat} {op : DeltaOp}

theorem decodeCopy_ok_iff (short : buf.length < maxBytes) (inside : i ≤ buf.length) :
    decodeCopy buf i = .ok (op, next) ↔ ∃ index count, op = .copy index count ∧ count ≠ 0 ∧ next = i + 8 ∧
      leBytes 4 index.toNat ++ leBytes 4 count.toNat <+: buf.drop i := by
  rw [maxBytes] at short
  rw [decodeCopy, advance_eq (by omega)]
  constructor
  · intro read
    split at read
    · cases read
    · rename_i room
      obtain ⟨index, first, read⟩ := bind_ok_iff.mp read
      obtain ⟨count, second, read⟩ := bind_ok_iff.mp read
      obtain ⟨smallIndex, hasIndex⟩ := (readLe_ok_iff inside).mp first
      obtain ⟨smallCount, hasCount⟩ := (readLe_ok_iff (by omega)).mp second
      have index_eq : (UInt32.ofNat index).toNat = index := UInt32.toNat_ofNat_of_lt' smallIndex
      have count_eq : (UInt32.ofNat count).toNat = count := UInt32.toNat_ofNat_of_lt' smallCount
      split at read
      · cases read
      · rename_i some_
        cases read
        refine ⟨_, _, rfl, ?_, rfl, ?_⟩
        · rintro zero
          rw [zero] at count_eq
          exact some_ count_eq.symm
        · rw [index_eq, count_eq, prefix_append_iff, length_leBytes, List.drop_drop]
          exact ⟨hasIndex, hasCount⟩
  · rintro ⟨index, count, rfl, some_, rfl, written⟩
    have size := written.length_le
    simp only [List.length_append, length_leBytes, List.length_drop] at size
    rw [prefix_append_iff, length_leBytes, List.drop_drop] at written
    have first := (readLe_ok_iff inside).mpr ⟨index.toNat_lt, written.1⟩
    have second := (readLe_ok_iff (by omega)).mpr ⟨count.toNat_lt, written.2⟩
    have nonzero : count.toNat ≠ 0 := fun zero => some_ (UInt32.toNat_inj.mp zero)
    rw [if_neg (by omega), first]
    simp only [bind, Except.bind, second, nonzero, if_false, UInt32.ofNat_toNat]

theorem decodeLiteral_ok_iff (short : buf.length < maxBytes) (inside : i ≤ buf.length) :
    decodeLiteral buf i = .ok (op, next) ↔ ∃ bytes, op = .literal bytes ∧ bytes.length < 2 ^ 32 ∧
      next = i + 4 + bytes.length ∧ leBytes 4 bytes.length ++ bytes <+: buf.drop i := by
  rw [maxBytes] at short
  rw [decodeLiteral, advance_eq (by omega)]
  constructor
  · intro read
    split at read
    · cases read
    · rename_i header
      obtain ⟨len, first, read⟩ := bind_ok_iff.mp read
      obtain ⟨small, hasLen⟩ := (readLe_ok_iff inside).mp first
      dsimp only at read
      rw [advance_eq (by omega)] at read
      split at read
      · cases read
      · rename_i room
        obtain ⟨bytes, second, read⟩ := bind_ok_iff.mp read
        obtain ⟨rfl, hasBytes⟩ := (slice_ok_iff (by omega)).mp second
        cases read
        refine ⟨bytes, rfl, small, rfl, ?_⟩
        rw [prefix_append_iff, length_leBytes, List.drop_drop]
        exact ⟨hasLen, hasBytes⟩
  · rintro ⟨bytes, rfl, small, rfl, written⟩
    have size := written.length_le
    simp only [List.length_append, length_leBytes, List.length_drop] at size
    rw [prefix_append_iff, length_leBytes, List.drop_drop] at written
    have first := (readLe_ok_iff inside).mpr ⟨small, written.1⟩
    have second := (slice_ok_iff (by omega)).mpr ⟨rfl, written.2⟩
    rw [if_neg (by omega), first]
    simp only [bind, Except.bind]
    rw [advance_eq (by omega), if_neg (by omega), second]

theorem decodeCopy_returns (short : buf.length < maxBytes) (inside : i ≤ buf.length) : Returns (decodeCopy buf i) := by
  rw [maxBytes] at short
  rw [decodeCopy, advance_eq (by omega)]
  split
  · exact returns_error _
  · refine (readLe_returns (by omega)).bind fun index _ => (readLe_returns (by omega)).bind fun count _ => ?_
    split
    · exact returns_error _
    · exact returns_ok _

theorem decodeLiteral_returns (short : buf.length < maxBytes) (inside : i ≤ buf.length) :
    Returns (decodeLiteral buf i) := by
  rw [maxBytes] at short
  rw [decodeLiteral, advance_eq (by omega)]
  split
  · exact returns_error _
  · refine (readLe_returns (by omega)).bind fun len read => ?_
    have small := ((readLe_ok_iff inside).mp read).1
    dsimp only
    rw [advance_eq (by omega)]
    split
    · exact returns_error _
    · exact (slice_returns (by omega)).bind fun bytes _ => returns_ok _

theorem getElem?_eq_some_iff_starts {tag : UInt8} : buf[i]? = some tag ↔ [tag] <+: buf.drop i := by
  rw [← List.head?_drop]
  cases buf.drop i with
  | nil => simp
  | cons head rest => simp [List.cons_prefix_cons, eq_comm]

theorem decodeOp_ok_iff (short : buf.length < maxBytes) (inside : i < buf.length) :
    decodeOp buf i = .ok (op, next) ↔ op.Fits ∧ next = i + (encodeOp op).length ∧ encodeOp op <+: buf.drop i := by
  have small := short
  rw [maxBytes] at small
  have tagged (tag : UInt8) (body : Bytes) : tag :: body <+: buf.drop i ↔ buf[i]? = some tag ∧ body <+: buf.drop (i + 1) := by
    rw [getElem?_eq_some_iff_starts, ← List.singleton_append, prefix_append_iff, List.drop_drop]
    rfl
  rw [decodeOp, advance_eq (by omega)]
  cases op with
  | copy index count =>
    rw [encodeOp, tagged, List.length_cons, List.length_append, length_leBytes, length_leBytes]
    split
    · rename_i missing
      simp [missing]
    · rename_i tag
      rw [decodeCopy_ok_iff short inside, tag]
      constructor
      · rintro ⟨_, _, same, fits, rfl, written⟩
        cases same
        exact ⟨fits, by omega, rfl, written⟩
      · rintro ⟨fits, rfl, -, written⟩
        exact ⟨index, count, rfl, fits, by omega, written⟩
    · rename_i tag
      rw [decodeLiteral_ok_iff short inside, tag]
      simp
    · rename_i other zero one tag
      have differs : other ≠ 0 := zero
      simp [differs, tag]
  | literal bytes =>
    rw [encodeOp, tagged, List.length_cons, List.length_append, length_leBytes]
    split
    · rename_i missing
      simp [missing]
    · rename_i tag
      rw [decodeCopy_ok_iff short inside, tag]
      simp
    · rename_i tag
      rw [decodeLiteral_ok_iff short inside, tag]
      constructor
      · rintro ⟨_, same, fits, rfl, written⟩
        cases same
        exact ⟨fits, by omega, rfl, written⟩
      · rintro ⟨fits, rfl, -, written⟩
        exact ⟨bytes, rfl, fits, by omega, written⟩
    · rename_i other zero one tag
      have differs : other ≠ 1 := one
      simp [differs, tag]

theorem decodeOp_returns (short : buf.length < maxBytes) (inside : i < buf.length) : Returns (decodeOp buf i) := by
  have small := short
  rw [maxBytes] at small
  rw [decodeOp, List.getElem?_eq_getElem inside, advance_eq (by omega)]
  split
  · simp_all
  · exact decodeCopy_returns short inside
  · exact decodeLiteral_returns short inside
  · exact returns_error _

end

theorem decodeOp_inverts : Inverts maxBytes decodeOp encodeOp DeltaOp.Fits where
  nonempty := by
    intro op
    cases op with
    | copy index count => exact List.cons_ne_nil _ _
    | literal bytes => exact List.cons_ne_nil _ _
  ok_iff := decodeOp_ok_iff

theorem decodeDelta_ok_iff {buf : Bytes} {ops : List DeltaOp} (short : buf.length < maxBytes) :
    decodeDelta buf = .ok ops ↔ (∀ op ∈ ops, op.Fits) ∧ encodeDelta ops = buf :=
  readAll_ok_iff decodeOp_inverts short

theorem decodeDelta_returns {buf : Bytes} (short : buf.length < maxBytes) : Returns (decodeDelta buf) :=
  readAll_returns decodeOp_inverts short fun _ inside => decodeOp_returns short inside

end Replication
