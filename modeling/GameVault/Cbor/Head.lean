import GameVault.Cbor.Error

namespace GameVault

namespace Cbor

/-- The `n` lowest bytes of `v`, most significant first. -/
def bigEndian (n v : Nat) : List UInt8 :=
  (List.range n).reverse.map fun i => (v / Nat.pow 256 i % 256).toUInt8

def ofBigEndian (bs : List UInt8) : Nat :=
  bs.foldl (fun acc b => acc * 256 + b.toNat) 0

/-- The shortest head with major type `major` and argument `n` (below `2 ^ 64`). -/
def head (major n : Nat) : List UInt8 :=
  let mt := major * 32
  if n < 24 then [(mt + n).toUInt8]
  else if n ≤ 0xFF then (mt + 24).toUInt8 :: bigEndian 1 n
  else if n ≤ 0xFFFF then (mt + 25).toUInt8 :: bigEndian 2 n
  else if n ≤ 0xFFFFFFFF then (mt + 26).toUInt8 :: bigEndian 4 n
  else (mt + 27).toUInt8 :: bigEndian 8 n

/-- A read from `input`: what was read or why not, and the bytes left unread, never more than the
input. -/
structure Read (input : List UInt8) (α : Type) where
  result : Except CodecError α
  rest : List UInt8
  rest_le : rest.length ≤ input.length

def Read.ok {input : List UInt8} {α : Type} (a : α) (rest : List UInt8)
    (h : rest.length ≤ input.length) : Read input α := ⟨.ok a, rest, h⟩

def Read.fail {input : List UInt8} {α : Type} (e : CodecError) (rest : List UInt8)
    (h : rest.length ≤ input.length) : Read input α := ⟨.error e, rest, h⟩

def Read.here {input : List UInt8} {α : Type} (a : α) : Read input α :=
  ⟨.ok a, input, Nat.le_refl _⟩

def Read.stop {input : List UInt8} {α : Type} (e : CodecError) : Read input α :=
  ⟨.error e, input, Nat.le_refl _⟩

/-- The same read, seen from a longer input. -/
def Read.widen {input input' : List UInt8} {α : Type} (r : Read input α)
    (h : input.length ≤ input'.length) : Read input' α :=
  ⟨r.result, r.rest, Nat.le_trans r.rest_le h⟩

/-- Takes `n` bytes, or fails with nothing consumed. -/
def takeBytes (n : Nat) (bs : List UInt8) : Read bs (List UInt8) :=
  if n ≤ bs.length then .ok (bs.take n) (bs.drop n) (by simp)
  else .stop .unexpectedEof

/-- Reads the argument announced by `info`, refusing a longer form than needed, reserved values and
indefinite lengths. A short input consumes nothing; a longer form than needed is refused after its
bytes were read. -/
def readArgument (info : Nat) (bs : List UInt8) : Read bs Nat :=
  if info < 24 then .here info
  else if info = 31 then .stop .indefiniteLength
  else if 27 < info then .stop (.invalidStructure .reservedInfo)
  else
    let width := if info = 24 then 1 else if info = 25 then 2 else if info = 26 then 4 else 8
    let shorter := if info = 24 then 24 else if info = 25 then 0x100 else if info = 26 then 0x10000
      else 0x100000000
    let r := takeBytes width bs
    match r with
    | ⟨.ok arg, rest, h⟩ =>
      let v := ofBigEndian arg
      if v < shorter then .fail (.invalidStructure .overlongArgument) rest h else .ok v rest h
    | ⟨.error e, rest, h⟩ => .fail e rest h

end Cbor

end GameVault
