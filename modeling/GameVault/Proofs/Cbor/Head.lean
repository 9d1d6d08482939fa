import Mathlib
import GameVault.Cbor.Decode

namespace GameVault.Cbor

/-- A read that produced `a` and left `rest` unread. -/
def Reads {input : List UInt8} {α : Type} (r : Read input α) (a : α) (rest : List UInt8) : Prop :=
  r.result = .ok a ∧ r.rest = rest

@[simp] theorem length_bigEndian (n v : Nat) : (bigEndian n v).length = n := by
  simp [bigEndian]

theorem bigEndian_succ (n v : Nat) :
    bigEndian (n + 1) v = (v / 256 ^ n % 256).toUInt8 :: bigEndian n v := by
  simp [bigEndian, List.range_succ, Nat.pow_eq]

theorem foldl_digits (acc : Nat) (bs : List UInt8) :
    bs.foldl (fun acc b => acc * 256 + b.toNat) acc = acc * 256 ^ bs.length + ofBigEndian bs := by
  induction bs generalizing acc with
  | nil => simp [ofBigEndian]
  | cons c cs ih =>
    simp only [ofBigEndian, List.foldl_cons, List.length_cons] at ih ⊢
    rw [ih, ih (0 * 256 + c.toNat)]
    ring

theorem ofBigEndian_cons (b : UInt8) (bs : List UInt8) :
    ofBigEndian (b :: bs) = b.toNat * 256 ^ bs.length + ofBigEndian bs := by
  rw [ofBigEndian, List.foldl_cons, foldl_digits]
  simp

theorem ofBigEndian_lt (bs : List UInt8) : ofBigEndian bs < 256 ^ bs.length := by
  induction bs with
  | nil => simp [ofBigEndian]
  | cons b bs ih =>
    rw [ofBigEndian_cons, List.length_cons, Nat.pow_succ]
    have byte := b.toNat_lt
    nlinarith

theorem ofBigEndian_bigEndian (n v : Nat) : ofBigEndian (bigEndian n v) = v % 256 ^ n := by
  induction n with
  | zero => simp [bigEndian, ofBigEndian, Nat.mod_one]
  | succ n ih =>
    rw [bigEndian_succ, ofBigEndian_cons, ih, length_bigEndian, Nat.pow_succ, Nat.mod_mul]
    simp
    ring

theorem bigEndian_mod (n v : Nat) : bigEndian n (v % 256 ^ n) = bigEndian n v := by
  induction n generalizing v with
  | zero => rfl
  | succ n ih =>
    have low : v % 256 ^ (n + 1) % 256 ^ n = v % 256 ^ n :=
      Nat.mod_mod_of_dvd _ (pow_dvd_pow 256 (Nat.le_succ n))
    rw [bigEndian_succ, bigEndian_succ, ← ih (v % 256 ^ (n + 1)), low, ih, Nat.pow_succ,
      Nat.mod_mul_right_div_self]
    simp

theorem bigEndian_ofBigEndian (bs : List UInt8) : bigEndian bs.length (ofBigEndian bs) = bs := by
  induction bs with
  | nil => rfl
  | cons b bs ih =>
    have low := ofBigEndian_lt bs
    have tail : (256 ^ bs.length * b.toNat + ofBigEndian bs) % 256 ^ bs.length = ofBigEndian bs := by
      rw [Nat.mul_add_mod, Nat.mod_eq_of_lt low]
    have head : (256 ^ bs.length * b.toNat + ofBigEndian bs) / 256 ^ bs.length = b.toNat := by
      rw [Nat.mul_add_div (by positivity), Nat.div_eq_of_lt low, Nat.add_zero]
    rw [List.length_cons, bigEndian_succ, ofBigEndian_cons, ← bigEndian_mod, Nat.mul_comm, tail, head, ih]
    simp [Nat.mod_eq_of_lt b.toNat_lt]

/-- The additional information of the shortest head that carries `n`. -/
def headInfo (n : Nat) : Nat :=
  if n < 24 then n else if n ≤ 0xFF then 24 else if n ≤ 0xFFFF then 25
  else if n ≤ 0xFFFFFFFF then 26 else 27

/-- How many argument bytes follow the first byte of the shortest head for `n`. -/
def argumentWidth (n : Nat) : Nat :=
  if n < 24 then 0 else if n ≤ 0xFF then 1 else if n ≤ 0xFFFF then 2
  else if n ≤ 0xFFFFFFFF then 4 else 8

theorem head_eq (major n : Nat) :
    head major n = (major * 32 + headInfo n).toUInt8 :: bigEndian (argumentWidth n) n := by
  unfold head headInfo argumentWidth
  split_ifs <;> rfl

theorem Reads.eq_ok {input : List UInt8} {α : Type} {r : Read input α} {a : α} {rest : List UInt8}
    (read : Reads r a rest) : r = ⟨.ok a, rest, read.2 ▸ r.rest_le⟩ := by
  obtain ⟨result, left, bound⟩ := r
  obtain ⟨value, rest'⟩ := read
  dsimp only at value rest'
  subst value rest'
  rfl

theorem takeBytes_append {n : Nat} {pre : List UInt8} (rest : List UInt8) (exact : n = pre.length) :
    takeBytes n (pre ++ rest) = .ok pre rest (by simp) := by
  subst exact
  simp [takeBytes, Read.ok]

/-- Bytes of argument announced by additional information `24` to `27`. -/
def wideWidth (info : Nat) : Nat :=
  if info = 24 then 1 else if info = 25 then 2 else if info = 26 then 4 else 8

/-- The least argument that needs the head of additional information `24` to `27`. -/
def wideLeast (info : Nat) : Nat :=
  if info = 24 then 24 else if info = 25 then 0x100 else if info = 26 then 0x10000 else 0x100000000

theorem readArgument_wide {info : Nat} {arg : List UInt8} (rest : List UInt8) (wide : 24 ≤ info)
    (narrow : info ≤ 27) (width : arg.length = wideWidth info) (least : wideLeast info ≤ ofBigEndian arg) :
    Reads (readArgument info (arg ++ rest)) (ofBigEndian arg) rest := by
  have notTiny : ¬info < 24 := by omega
  have notBreak : info ≠ 31 := by omega
  have notReserved : ¬27 < info := by omega
  simp only [wideWidth] at width
  simp only [wideLeast] at least
  simp only [readArgument, notTiny, notBreak, notReserved, if_false]
  rw [takeBytes_append rest width.symm]
  simp [Reads, Read.ok, Nat.not_lt.mpr least]

theorem readArgument_head {n : Nat} (fits : n < 2 ^ 64) (rest : List UInt8) :
    Reads (readArgument (headInfo n) (bigEndian (argumentWidth n) n ++ rest)) n rest := by
  have wide (info width : Nat) (isInfo : headInfo n = info) (isWidth : argumentWidth n = width)
      (low : 24 ≤ info) (high : info ≤ 27) (sized : wideWidth info = width) (least : wideLeast info ≤ n)
      (below : n < 256 ^ width) :
      Reads (readArgument (headInfo n) (bigEndian (argumentWidth n) n ++ rest)) n rest := by
    have read := @readArgument_wide _ (bigEndian width n) rest low high (by simp [sized])
      (by rw [ofBigEndian_bigEndian, Nat.mod_eq_of_lt below]; exact least)
    rwa [ofBigEndian_bigEndian, Nat.mod_eq_of_lt below, ← isInfo, ← isWidth] at read
  by_cases tiny : n < 24
  · simp [headInfo, argumentWidth, tiny, readArgument, Reads, Read.here, bigEndian]
  by_cases one : n ≤ 0xFF
  · exact wide 24 1 (by simp [headInfo, tiny, one]) (by simp [argumentWidth, tiny, one]) (by omega) (by omega)
      rfl (by simp [wideLeast]; omega) (by omega)
  by_cases two : n ≤ 0xFFFF
  · exact wide 25 2 (by simp [headInfo, tiny, one, two]) (by simp [argumentWidth, tiny, one, two]) (by omega)
      (by omega) rfl (by simp [wideLeast]; omega) (by omega)
  by_cases four : n ≤ 0xFFFFFFFF
  · exact wide 26 4 (by simp [headInfo, tiny, one, two, four]) (by simp [argumentWidth, tiny, one, two, four])
      (by omega) (by omega) rfl (by simp [wideLeast]; omega) (by omega)
  · exact wide 27 8 (by simp [headInfo, tiny, one, two, four]) (by simp [argumentWidth, tiny, one, two, four])
      (by omega) (by omega) rfl (by simp [wideLeast]; omega) (by omega)

theorem takeBytes_reads {n : Nat} {bs pre rest : List UInt8} (read : Reads (takeBytes n bs) pre rest) :
    bs = pre ++ rest ∧ pre.length = n := by
  unfold takeBytes at read
  split at read
  · obtain ⟨taken, left⟩ := read
    simp only [Read.ok, Except.ok.injEq] at taken left
    subst taken left
    simp_all
  · simp [Read.stop, Reads] at read

theorem readArgument_wide_reads {info n : Nat} {bs rest : List UInt8} (wide : 24 ≤ info) (narrow : info ≤ 27)
    (read : Reads (readArgument info bs) n rest) :
    ∃ arg, bs = arg ++ rest ∧ arg.length = wideWidth info ∧ n = ofBigEndian arg ∧ wideLeast info ≤ n := by
  have notTiny : ¬info < 24 := by omega
  have notBreak : info ≠ 31 := by omega
  have notReserved : ¬27 < info := by omega
  simp only [readArgument, notTiny, notBreak, notReserved, if_false] at read
  split at read
  · rename_i arg left bound taken
    change Reads (if ofBigEndian arg < wideLeast info then
      Read.fail (.invalidStructure .overlongArgument) left bound else Read.ok (ofBigEndian arg) left bound) n rest
      at read
    split at read
    · simp [Reads, Read.fail] at read
    · rename_i enough
      obtain ⟨value, rest'⟩ := read
      simp only [Read.ok, Except.ok.injEq] at value rest'
      subst value rest'
      obtain ⟨split, length⟩ := @takeBytes_reads (wideWidth info) _ _ _ ⟨congrArg Read.result taken, congrArg Read.rest taken⟩
      exact ⟨arg, split, length, rfl, by omega⟩
  · simp [Read.fail, Reads] at read

/-- A head that reads is the shortest head of what it read. -/
theorem readArgument_reads {info n : Nat} {bs rest : List UInt8} (read : Reads (readArgument info bs) n rest) :
    info = headInfo n ∧ bs = bigEndian (argumentWidth n) n ++ rest ∧ n < 2 ^ 64 := by
  by_cases tiny : info < 24
  · obtain ⟨value, left⟩ := read
    simp only [readArgument, tiny, if_true, Read.here, Except.ok.injEq] at value left
    subst value left
    simp [headInfo, argumentWidth, tiny, bigEndian]
    omega
  by_cases wide : info ≤ 27
  · obtain ⟨arg, split, length, rfl, least⟩ := readArgument_wide_reads (by omega) wide read
    have below := ofBigEndian_lt arg
    rw [length] at below
    have shape : headInfo (ofBigEndian arg) = info ∧ argumentWidth (ofBigEndian arg) = arg.length := by
      rw [length]
      simp only [headInfo, argumentWidth]
      interval_cases info <;> simp [wideWidth, wideLeast] at below least ⊢ <;> split_ifs <;> omega
    refine ⟨shape.1.symm, ?_, ?_⟩
    · rw [shape.2, bigEndian_ofBigEndian, split]
    · have room : 256 ^ wideWidth info ≤ 2 ^ 64 := by
        interval_cases info <;> simp [wideWidth]
      omega
  · by_cases stray : info = 31
    · simp [readArgument, stray, Reads, Read.stop] at read
    · simp [readArgument, tiny, stray, Nat.lt_of_not_le wide, Reads, Read.stop] at read

theorem firstByte_major {major info : Nat} (small : major < 8) (within : info < 32) :
    (major * 32 + info).toUInt8.toNat / 32 = major := by
  simp only [Nat.toUInt8_eq, UInt8.toNat_ofNat']
  omega

theorem firstByte_info {major info : Nat} (within : info < 32) :
    (major * 32 + info).toUInt8.toNat % 32 = info := by
  simp only [Nat.toUInt8_eq, UInt8.toNat_ofNat']
  omega

theorem firstByte_eq (b : UInt8) : (b.toNat / 32 * 32 + b.toNat % 32).toUInt8 = b := by
  rw [Nat.div_add_mod']
  simp

theorem readLength_reads_iff {info limit n : Nat} {bs rest : List UInt8} :
    Reads (readLength info limit bs) n rest ↔ Reads (readArgument info bs) n rest ∧ n ≤ limit := by
  unfold readLength
  generalize readArgument info bs = r
  rcases r with ⟨_ | m, left, bound⟩
  · simp [Reads, Read.fail]
  · by_cases within : m ≤ limit
    · simp [Reads, Read.ok, within, and_assoc]
      aesop
    · simp [Reads, Read.fail, within]
      omega

end GameVault.Cbor
