import Mathlib.Data.List.Basic

/-!
# Cyclic redundancy checks

A check of `w` bits is given by its polynomial, what the register begins with and what is added to
it at the end, and by whether octets and register are reflected.  The register takes one bit after
the other at its top.  Programs for reflected checks shift the other way; they keep the reverse of
the register (`crc_reflected`).
-/

namespace DeconzRest

structure CrcParams (w : Nat) where
  poly : BitVec w
  init : BitVec w
  refIn : Bool
  refOut : Bool
  xorOut : BitVec w

namespace CrcParams

variable {w : Nat}

/-- A bit goes into the register, with the top of the register shifted out. -/
def shiftIn (poly reg : BitVec w) (bit : Bool) : BitVec w :=
  if reg.msb ^^ bit then (reg <<< 1) ^^^ poly else reg <<< 1

def octetBits (refIn : Bool) (octet : UInt8) : List Bool :=
  (List.range 8).map fun i =>
    if refIn then octet.toBitVec.getLsbD i else octet.toBitVec.getMsbD i

def crc (p : CrcParams w) (data : List UInt8) : BitVec w :=
  let reg := (data.flatMap (octetBits p.refIn)).foldl (shiftIn p.poly) p.init
  (if p.refOut then reg.reverse else reg) ^^^ p.xorOut

/-- A bit goes into the register at the bottom. -/
def shiftInLow (poly reg : BitVec w) (bit : Bool) : BitVec w :=
  if reg.getLsbD 0 ^^ bit then (reg >>> 1) ^^^ poly else reg >>> 1

theorem reverse_xor (x y : BitVec w) : (x ^^^ y).reverse = x.reverse ^^^ y.reverse := by
  ext i
  simp only [BitVec.getElem_reverse, BitVec.getElem_xor, BitVec.getMsbD_xor]

theorem reverse_shiftLeft_one (x : BitVec w) : (x <<< 1).reverse = x.reverse >>> 1 := by
  ext i
  rw [BitVec.getElem_reverse, BitVec.getMsbD_shiftLeft, BitVec.getElem_ushiftRight,
    BitVec.getLsbD_reverse, Nat.add_comm]

theorem reverse_shiftIn (poly reg : BitVec w) (bit : Bool) :
    (shiftIn poly reg bit).reverse = shiftInLow poly.reverse reg.reverse bit := by
  have hbit : reg.reverse.getLsbD 0 = reg.msb := BitVec.getLsbD_reverse
  unfold shiftIn shiftInLow
  rw [hbit, ← reverse_shiftLeft_one, ← reverse_xor]
  exact apply_ite BitVec.reverse _ _ _

theorem reverse_foldl (poly reg : BitVec w) (bits : List Bool) :
    (bits.foldl (shiftIn poly) reg).reverse = bits.foldl (shiftInLow poly.reverse) reg.reverse := by
  induction bits generalizing reg with
  | nil => rfl
  | cons bit bits ih => rw [List.foldl_cons, List.foldl_cons, ih, reverse_shiftIn]

theorem crc_reflected {p : CrcParams w} (hout : p.refOut = true) (data : List UInt8) :
    p.crc data = (data.flatMap (octetBits p.refIn)).foldl (shiftInLow p.poly.reverse)
      p.init.reverse ^^^ p.xorOut := by
  unfold crc
  simp only [hout, if_true, reverse_foldl]

end CrcParams

end DeconzRest
