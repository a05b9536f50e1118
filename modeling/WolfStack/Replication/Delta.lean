import WolfStack.Replication.Signature

/-! Building a delta against a signature and applying it, after
`wolfha/replication/rolling.rs`. Files are their bytes; reading, seeking and writing
them does not fail. -/

namespace Replication

inductive DeltaOp where
  | copy (index count : UInt32)
  | literal (bytes : Bytes)
deriving DecidableEq

def flushLiteral (ops : List DeltaOp) (literal : Bytes) : List DeltaOp :=
  if literal.isEmpty then ops else ops ++ [.literal literal]

/-- A copy joins the previous one when its block directly follows; the sum is on `u32`. -/
def pushCopy (ops : List DeltaOp) (index : UInt32) : List DeltaOp :=
  match ops.getLast? with
  | some (.copy pi count) =>
    if pi + count = index then ops.dropLast ++ [.copy pi (count + 1)] else ops ++ [.copy index 1]
  | _ => ops ++ [.copy index 1]

namespace FileSignature

variable (sig : FileSignature)

/-- `table.get(&weak)`: the full-length blocks with this checksum, by index. -/
def candidates (weak : UInt32) : List UInt32 :=
  (sig.blocks.zipIdx.filter fun (bs, i) => sig.blockLen i = sig.blockSize ∧ bs.weak = weak).map
    fun (_, i) => UInt32.ofNat i

def strongAt (index : UInt32) : Option Digest := sig.blocks[index.toNat]?.map (·.strong)

def tailBlock : Option (UInt32 × Nat) :=
  match sig.blocks.length with
  | 0 => none
  | last + 1 =>
    if 0 < sig.blockLen last ∧ sig.blockLen last < sig.blockSize then some (UInt32.ofNat last, sig.blockLen last) else none

end FileSignature

section

variable (strongHash : Bytes → Digest)

def matched (sig : FileSignature) (roll : Rolling) (window : Bytes) : Option UInt32 :=
  (sig.candidates roll.digest).find? fun ci => sig.strongAt ci = some (strongHash window)

/-- The scanning loop, over `rest = data[pos..]`, which holds at least one window; its
result is the part of the data that no window covers any more, with the pending literal
and the instructions so far. -/
def scan (sig : FileSignature) (roll : Rolling) (rest literal : Bytes) (ops : List DeltaOp) :
    Bytes × Bytes × List DeltaOp :=
  match rest with
  | [] => ([], literal, ops)
  | out :: tail =>
    match matched strongHash sig roll ((out :: tail).take sig.blockSize) with
    | some ci =>
      let ops := pushCopy (flushLiteral ops literal) ci
      let next := tail.drop (sig.blockSize - 1)
      if next.length < sig.blockSize then (next, [], ops)
      else scan sig (.new (next.take sig.blockSize)) next [] ops
    | none =>
      match tail[sig.blockSize - 1]? with
      | none => (tail, literal ++ [out], ops)
      | some inb => scan sig (roll.roll out inb) tail (literal ++ [out]) ops
termination_by rest.length
decreasing_by all_goals simp +zetaDelta only [List.length_cons, List.length_drop]; omega

/-- What the window could not cover is matched against the short last block, or sent. -/
def finish (sig : FileSignature) : Bytes × Bytes × List DeltaOp → List DeltaOp
  | (rest, literal, ops) =>
    match sig.tailBlock with
    | some (idx, len) =>
      if rest.length = len ∧ sig.strongAt idx = some (strongHash rest) then pushCopy (flushLiteral ops literal) idx
      else flushLiteral ops (literal ++ rest)
    | none => flushLiteral ops (literal ++ rest)

def deltaFromBytes (data : Bytes) (sig : FileSignature) : List DeltaOp :=
  if sig.blockSize = 0 ∨ sig.blocks = [] then
    if data.isEmpty then [] else [.literal data]
  else if sig.blockSize ≤ data.length then
    finish strongHash sig (scan strongHash sig (.new (data.take sig.blockSize)) data [] [])
  else finish strongHash sig (data, [], [])

end

section

variable (basePath : String) (base : Bytes) (blockSize : Nat)

def pastEnd (number : UInt32) : String :=
  "delta references block " ++ toString number ++ " which is past the end of " ++ basePath ++
    " — the replica's copy is not the one the delta was built against; a full resync is required"

def copyBlock (out : Bytes) (index : UInt32) (k : Nat) : Except String Bytes :=
  let buf := (base.drop ((index.toNat + k) * blockSize)).take blockSize
  if buf.isEmpty then .error (pastEnd basePath (index + UInt32.ofNat k)) else .ok (out ++ buf)

def applyOp (out : Bytes) : DeltaOp → Except String Bytes
  | .literal bytes => .ok (out ++ bytes)
  | .copy index count => (List.range count.toNat).foldlM (fun out k => copyBlock basePath base blockSize out index k) out

def applyDelta (ops : List DeltaOp) : Except String Bytes := ops.foldlM (applyOp basePath base blockSize) []

end

end Replication
