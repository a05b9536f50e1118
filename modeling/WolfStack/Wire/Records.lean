import WolfStack.Wire.LittleEndian

/-! Reading a buffer at a running offset. Offsets are machine words, and a slice or an
index out of range panics. A reader that inverts a writer record by record inverts it
on a whole stream. -/

namespace Wire

/-- How a read can end without a value: an error it returns, an index out of range, or a
loop that goes on for more turns than the buffer has bytes. -/
inductive Fault where
  | error (text : String)
  | panic
  | stuck
deriving DecidableEq

def Returns {α : Type} (result : Except Fault α) : Prop := result ≠ .error .panic ∧ result ≠ .error .stuck

def advance (offset by_ : Nat) : Nat := (offset + by_) % 2 ^ 64

def slice (buf : List UInt8) (start stop : Nat) : Except Fault (List UInt8) :=
  if start ≤ stop ∧ stop ≤ buf.length then .ok ((buf.drop start).take (stop - start)) else .error .panic

def readLe (buf : List UInt8) (offset width : Nat) : Except Fault Nat :=
  (slice buf offset (offset + width)).map leValue

theorem bind_ok_iff {ε α β : Type} {first : Except ε α} {next : α → Except ε β} {value : β} :
    first >>= next = .ok value ↔ ∃ middle, first = .ok middle ∧ next middle = .ok value := by
  cases first with
  | error fault => simp [bind, Except.bind]
  | ok middle => simp [bind, Except.bind]

theorem bind_error_iff {ε α β : Type} {first : Except ε α} {next : α → Except ε β} {fault : ε} :
    first >>= next = .error fault ↔ first = .error fault ∨ ∃ middle, first = .ok middle ∧ next middle = .error fault := by
  cases first with
  | error fault => simp [bind, Except.bind]
  | ok middle => simp [bind, Except.bind]

@[simp] theorem returns_ok {α : Type} (value : α) : Returns (.ok value : Except Fault α) := ⟨nofun, nofun⟩

@[simp] theorem returns_error {α : Type} (text : String) : Returns (.error (.error text) : Except Fault α) :=
  ⟨nofun, nofun⟩

theorem Returns.bind {α β : Type} {first : Except Fault α} {next : α → Except Fault β} (returns : Returns first)
    (later : ∀ middle, first = .ok middle → Returns (next middle)) : Returns (first >>= next) := by
  cases first with
  | error fault =>
    refine ⟨fun fails => returns.1 ?_, fun fails => returns.2 ?_⟩
    · cases fails
      rfl
    · cases fails
      rfl
  | ok middle => exact later middle rfl

theorem advance_eq {offset by_ : Nat} (small : offset + by_ < 2 ^ 64) : advance offset by_ = offset + by_ :=
  Nat.mod_eq_of_lt small

theorem advance_lt {offset by_ : Nat} (start : offset < 2 ^ 64) (word : by_ < 2 ^ 64) (past : 2 ^ 64 ≤ offset + by_) :
    advance offset by_ < offset := by
  rw [advance]
  omega

section

variable {buf bytes : List UInt8} {offset width value : Nat}

theorem prefix_append_iff {left right whole : List UInt8} :
    left ++ right <+: whole ↔ left <+: whole ∧ right <+: whole.drop left.length := by
  constructor
  · rintro ⟨rest, rfl⟩
    refine ⟨⟨right ++ rest, by simp⟩, ⟨rest, by simp⟩⟩
  · rintro ⟨⟨rest, rfl⟩, behind⟩
    rw [List.drop_left] at behind
    exact (List.prefix_append_right_inj left).mpr behind

theorem slice_ok_iff (inside : offset ≤ buf.length) :
    slice buf offset (offset + width) = .ok bytes ↔ bytes.length = width ∧ bytes <+: buf.drop offset := by
  rw [slice]
  constructor
  · intro read
    split at read
    · rename_i room
      simp only [Nat.add_sub_cancel_left, Except.ok.injEq] at read
      subst read
      refine ⟨?_, List.take_prefix _ _⟩
      rw [List.length_take, List.length_drop]
      omega
    · cases read
  · rintro ⟨rfl, found⟩
    have room := found.length_le
    rw [List.length_drop] at room
    rw [if_pos (by omega), Nat.add_sub_cancel_left, List.prefix_iff_eq_take.mp found]
    simp

theorem readLe_ok_iff (inside : offset ≤ buf.length) :
    readLe buf offset width = .ok value ↔ value < 256 ^ width ∧ leBytes width value <+: buf.drop offset := by
  constructor
  · intro read
    rw [readLe] at read
    cases sliced : slice buf offset (offset + width) with
    | error fault => simp [sliced, Except.map] at read
    | ok bytes =>
      simp only [sliced, Except.map, Except.ok.injEq] at read
      obtain ⟨size, found⟩ := (slice_ok_iff inside).mp sliced
      obtain ⟨small, rfl⟩ := (leValue_eq_iff size).mp read
      exact ⟨small, found⟩
  · rintro ⟨small, found⟩
    rw [readLe, (slice_ok_iff inside).mpr ⟨length_leBytes width value, found⟩]
    exact congrArg Except.ok ((leValue_eq_iff (length_leBytes width value)).mpr ⟨small, rfl⟩)

theorem readLe_leBytes (inside : offset ≤ buf.length) (written : leBytes width value <+: buf.drop offset) :
    readLe buf offset width = .ok (value % 256 ^ width) := by
  rw [readLe, (slice_ok_iff inside).mpr ⟨length_leBytes width value, written⟩]
  exact congrArg Except.ok (leValue_leBytes width value)

theorem readLe_returns (room : offset + width ≤ buf.length) : Returns (readLe buf offset width) := by
  rw [readLe, slice, if_pos (by omega)]
  exact returns_ok _

theorem slice_returns (room : offset + width ≤ buf.length) : Returns (slice buf offset (offset + width)) := by
  rw [slice, if_pos (by omega)]
  exact returns_ok _

end

section

variable {α : Type}

/-- `while offset < buf.len()`: one record a turn. -/
def records (read : Nat → Except Fault (α × Nat)) (size : Nat) : Nat → Nat → Except Fault (List α)
  | 0, _ => .error .stuck
  | fuel + 1, offset =>
    if offset < size then do
      let (item, next) ← read offset
      let rest ← records read size fuel next
      .ok (item :: rest)
    else .ok []

def readAll (read : List UInt8 → Nat → Except Fault (α × Nat)) (buf : List UInt8) : Except Fault (List α) :=
  records (read buf) buf.length (buf.length + 1) 0

/-- On buffers below the limit, a record is read exactly where it was written. -/
structure Inverts (limit : Nat) (read : List UInt8 → Nat → Except Fault (α × Nat)) (write : α → List UInt8)
    (fits : α → Prop) : Prop where
  nonempty : ∀ item, write item ≠ []
  ok_iff : ∀ {buf offset item next}, buf.length < limit → offset < buf.length →
    (read buf offset = .ok (item, next) ↔ fits item ∧ next = offset + (write item).length ∧ write item <+: buf.drop offset)

variable {limit : Nat} {read : List UInt8 → Nat → Except Fault (α × Nat)} {write : α → List UInt8} {fits : α → Prop}
  {buf : List UInt8} {fuel offset : Nat} {items : List α} {fault : Fault}

theorem Inverts.next (inverts : Inverts limit read write fits) (short : buf.length < limit) (inside : offset < buf.length)
    {item : α} {next : Nat} (found : read buf offset = .ok (item, next)) :
    fits item ∧ offset < next ∧ next ≤ buf.length ∧ write item ++ buf.drop next = buf.drop offset := by
  obtain ⟨fit, rfl, written⟩ := (inverts.ok_iff short inside).mp found
  have size := written.length_le
  have some_ := List.length_pos_iff.mpr (inverts.nonempty item)
  rw [List.length_drop] at size
  refine ⟨fit, by omega, by omega, ?_⟩
  obtain ⟨rest, cut⟩ := written
  rw [← List.drop_drop, ← cut, List.drop_left]

theorem records_ok_iff (inverts : Inverts limit read write fits) (short : buf.length < limit)
    (inside : offset ≤ buf.length) (enough : buf.length - offset < fuel) :
    records (read buf) buf.length fuel offset = .ok items ↔
      (∀ item ∈ items, fits item) ∧ items.flatMap write = buf.drop offset := by
  induction fuel generalizing offset items with
  | zero => omega
  | succ fuel ih =>
    rw [records]
    split
    · rename_i more
      rw [bind_ok_iff]
      constructor
      · rintro ⟨⟨item, next⟩, found, later⟩
        obtain ⟨rest, tail, same⟩ := bind_ok_iff.mp later
        obtain ⟨fit, further, within, cut⟩ := inverts.next short more found
        obtain ⟨fitting, written⟩ := (ih within (by omega)).mp tail
        cases same
        refine ⟨by simp [fit]; exact fitting, ?_⟩
        rw [List.flatMap_cons, written, cut]
      · rintro ⟨fitting, written⟩
        cases items with
        | nil =>
          have size := congrArg List.length written
          simp only [List.flatMap_nil, List.length_nil, List.length_drop] at size
          omega
        | cons item rest =>
          rw [List.flatMap_cons] at written
          have found : read buf offset = .ok (item, offset + (write item).length) :=
            (inverts.ok_iff short more).mpr ⟨fitting item List.mem_cons_self, rfl, rest.flatMap write, written⟩
          obtain ⟨-, further, within, cut⟩ := inverts.next short more found
          have tail : records (read buf) buf.length fuel (offset + (write item).length) = .ok rest :=
            (ih within (by omega)).mpr ⟨fun other member => fitting other (List.mem_cons_of_mem item member),
              List.append_cancel_left (written.trans cut.symm)⟩
          exact ⟨_, found, bind_ok_iff.mpr ⟨rest, tail, rfl⟩⟩
    · have past : buf.drop offset = [] := List.drop_eq_nil_iff.mpr (by omega)
      rw [past]
      constructor
      · intro read
        cases read
        simp
      · rintro ⟨-, written⟩
        cases items with
        | nil => rfl
        | cons item rest => exact absurd (List.append_eq_nil_iff.mp written).1 (inverts.nonempty item)

theorem records_error_iff (inverts : Inverts limit read write fits) (short : buf.length < limit)
    (inside : offset ≤ buf.length) (enough : buf.length - offset < fuel) :
    records (read buf) buf.length fuel offset = .error fault ↔
      ∃ (items : List α) (rest : List UInt8), (∀ item ∈ items, fits item) ∧ rest ≠ [] ∧
        items.flatMap write ++ rest = buf.drop offset ∧ read buf (buf.length - rest.length) = .error fault := by
  induction fuel generalizing offset with
  | zero => omega
  | succ fuel ih =>
    rw [records]
    split
    · rename_i more
      have here : (buf.drop offset).length = buf.length - offset := List.length_drop
      rw [bind_error_iff]
      constructor
      · rintro (failed | ⟨⟨item, next⟩, found, later⟩)
        · refine ⟨[], buf.drop offset, by simp, ?_, by simp, ?_⟩
          · exact List.length_pos_iff.mp (by omega)
          · rwa [here, Nat.sub_sub_self inside]
        · obtain ⟨fit, further, within, cut⟩ := inverts.next short more found
          rcases bind_error_iff.mp later with failed | ⟨rest, -, fine⟩
          · obtain ⟨items, rest, fitting, some_, written, failed⟩ := (ih within (by omega)).mp failed
            refine ⟨item :: items, rest, by simp [fit]; exact fitting, some_, ?_, failed⟩
            rw [List.flatMap_cons, List.append_assoc, written, cut]
          · cases fine
      · rintro ⟨items, rest, fitting, some_, written, failed⟩
        cases items with
        | nil =>
          left
          rw [List.flatMap_nil, List.nil_append] at written
          rwa [written, here, Nat.sub_sub_self inside] at failed
        | cons item items =>
          right
          rw [List.flatMap_cons, List.append_assoc] at written
          have found : read buf offset = .ok (item, offset + (write item).length) :=
            (inverts.ok_iff short more).mpr ⟨fitting item List.mem_cons_self, rfl, _, written⟩
          obtain ⟨-, further, within, cut⟩ := inverts.next short more found
          have tail := (ih within (by omega)).mpr
            ⟨items, rest, fun other member => fitting other (List.mem_cons_of_mem item member), some_,
              List.append_cancel_left (written.trans cut.symm), failed⟩
          exact ⟨_, found, bind_error_iff.mpr (.inl tail)⟩
    · have past : buf.drop offset = [] := List.drop_eq_nil_iff.mpr (by omega)
      rw [past]
      constructor
      · nofun
      · rintro ⟨items, rest, -, some_, written, -⟩
        exact absurd (List.append_eq_nil_iff.mp written).2 some_

theorem readAll_ok_iff (inverts : Inverts limit read write fits) (short : buf.length < limit) :
    readAll read buf = .ok items ↔ (∀ item ∈ items, fits item) ∧ items.flatMap write = buf := by
  rw [readAll, records_ok_iff inverts short (Nat.zero_le _) (by omega), List.drop_zero]

theorem readAll_error_iff (inverts : Inverts limit read write fits) (short : buf.length < limit) :
    readAll read buf = .error fault ↔
      ∃ (items : List α) (rest : List UInt8), (∀ item ∈ items, fits item) ∧ rest ≠ [] ∧
        items.flatMap write ++ rest = buf ∧ read buf (buf.length - rest.length) = .error fault := by
  rw [readAll, records_error_iff inverts short (Nat.zero_le _) (by omega), List.drop_zero]

theorem readAll_returns_iff (inverts : Inverts limit read write fits) (short : buf.length < limit) :
    Returns (readAll read buf) ↔ ∀ (items : List α) (rest : List UInt8), (∀ item ∈ items, fits item) → rest ≠ [] →
      items.flatMap write ++ rest = buf → Returns (read buf (buf.length - rest.length)) := by
  constructor
  · intro returns items rest fitting some_ written
    constructor
    · intro panics
      exact returns.1 ((readAll_error_iff inverts short).mpr ⟨items, rest, fitting, some_, written, panics⟩)
    · intro loops
      exact returns.2 ((readAll_error_iff inverts short).mpr ⟨items, rest, fitting, some_, written, loops⟩)
  · intro each
    constructor
    · intro failed
      obtain ⟨items, rest, fitting, some_, written, panics⟩ := (readAll_error_iff inverts short).mp failed
      exact (each items rest fitting some_ written).1 panics
    · intro failed
      obtain ⟨items, rest, fitting, some_, written, loops⟩ := (readAll_error_iff inverts short).mp failed
      exact (each items rest fitting some_ written).2 loops

theorem readAll_returns (inverts : Inverts limit read write fits) (short : buf.length < limit)
    (each : ∀ offset < buf.length, Returns (read buf offset)) : Returns (readAll read buf) := by
  refine (readAll_returns_iff inverts short).mpr fun items rest _ some_ written => each _ ?_
  have positive := List.length_pos_iff.mpr some_
  have size := congrArg List.length written
  rw [List.length_append] at size
  omega

end

end Wire
