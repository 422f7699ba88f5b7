import MariaDB.Strings.Decimal

/-!
# The binary format of decimal numbers

`decimal2bin()` writes a decimal number in a format that depends on the precision and the
scale only, and `bin2decimal()` reads it. Every full word takes four bytes, and the digits
of the integer part before its full words and the digits of the fraction behind its full
words take as many bytes as they need. The bytes of a negative number are inverted, and
the first bit is inverted always.
-/
namespace MariaDB.Strings

open Library

inductive DecError
  | ok
  | truncated
  | overflow
  | badNum
  deriving DecidableEq, Repr

def dig2bytes (i : Nat) : Nat := [0, 1, 1, 2, 2, 3, 3, 4, 4, 4].getD i 0

def sizeofDec1 : Nat := 4

def binSize (digits : Nat) : Nat :=
  let words := digits / digPerDec1
  words * sizeofDec1 + dig2bytes (digits - words * digPerDec1)

def maskByte (mask : Bool) : UInt8 := if mask then 255 else 0

/-- `mi_int1store()` to `mi_int4store()` of `x ^ mask`. -/
def miStore (i x : Nat) (mask : Bool) : List UInt8 := (toBytes i x).map (· ^^^ maskByte mask)

def invertFirst : List UInt8 → List UInt8
  | b :: bs => (b ^^^ 128) :: bs
  | [] => []

def extendFrac (i : Nat) : Nat → Nat → Nat
  | n + 1, frac1x => if dig2bytes frac1x = i then extendFrac i n (frac1x + 1) else frac1x
  | 0, frac1x => frac1x

/-- How many full words and how many digits behind them `decimal2bin()` stores of a
fraction, and the size that is left to fill. The sizes in bytes are compared, not the
numbers of digits. -/
def fitFrac (frac0 frac0x frac1 frac1x fsize0 fsize1 : Nat) : Nat × Nat × Nat :=
  if fsize0 < fsize1 then (frac0, frac0x, fsize0)
  else if fsize0 > fsize1 ∧ 0 < frac1x then
    if frac0 = frac1 then (frac1, frac0x, fsize1) else (frac1 + 1, 0, fsize0)
  else (frac1, frac1x, fsize0)

/-- The part of `decimal2bin()` for the digits behind the full words, from the word `w`. -/
def storeFracx (frac0 frac0x frac1 frac1x w : Nat) (mask : Bool) : List UInt8 :=
  if 0 < frac1x then
    let i := dig2bytes frac1x
    let lim := if frac1 < frac0 then digPerDec1 else frac0x
    let frac1x := extendFrac i (lim - frac1x) frac1x
    miStore i (w / powers10 (digPerDec1 - frac1x)) mask
  else []

def decimal2bin (d : Decimal) (precision frac : Nat) : List UInt8 × DecError :=
  let intg := precision - frac
  let intg0 := intg / digPerDec1
  let frac0 := frac / digPerDec1
  let intg0x := intg - intg0 * digPerDec1
  let frac0x := frac - frac0 * digPerDec1
  let frac1 := d.frac / digPerDec1
  let frac1x := d.frac - frac1 * digPerDec1
  let isize0 := binSize intg
  let fsize0 := binSize frac
  let fsize1 := binSize d.frac
  let size := fsize0 + isize0
  let (buf1, fromIntg) := removeLeadingZeroes d
  -- zero without digits: `mask=0`, `intg=1` and `buf1=&mask`
  let (mask, intg, buf1) :=
    if fromIntg + fsize1 = 0 then (false, 1, [0]) else (d.sign, intg, buf1)
  let intg1 := fromIntg / digPerDec1
  let intg1x := fromIntg - intg1 * digPerDec1
  let isize1 := binSize fromIntg
  let (buf1, intg1, intg1x, error, pad) :=
    if intg < fromIntg then
      (buf1.drop (intg1 + (if 0 < intg1x then 1 else 0) - (intg0 + if 0 < intg0x then 1 else 0)),
        intg0, intg0x, DecError.overflow, 0)
    else (buf1, intg1, intg1x, DecError.ok, isize0 - isize1)
  let error := if fsize0 < fsize1 then DecError.truncated else error
  let (frac1, frac1x, rest) := fitFrac frac0 frac0x frac1 frac1x fsize0 fsize1
  let (lead, buf1) :=
    if 0 < intg1x then
      (miStore (dig2bytes intg1x) (buf1.headD 0 % powers10 intg1x) mask, buf1.drop 1)
    else ([], buf1)
  let words := (buf1.take (intg1 + frac1)).flatMap (miStore sizeofDec1 · mask)
  let buf1 := buf1.drop (intg1 + frac1)
  let last := storeFracx frac0 frac0x frac1 frac1x (buf1.headD 0) mask
  let dst := List.replicate pad (maskByte mask) ++ lead ++ words ++ last
  -- `while (fsize0-- > fsize1 && to < to_end)`
  let fill := List.replicate (min (rest - fsize1) (size - dst.length)) (maskByte mask)
  (invertFirst (dst ++ fill), error)

def decimalBinSize (precision scale : Nat) : Nat := binSize (precision - scale) + binSize scale

def miSintKorr (l : List UInt8) : Int :=
  if 2 * ofBytes l < 256 ^ l.length then ofBytes l else (ofBytes l : Int) - 256 ^ l.length

def xorMask (x : Int) (mask : Bool) : Int := if mask then -1 - x else x

def decimalMakeZero : Decimal := ⟨1, 0, false, [0]⟩

def fixIntgFracError (len intg1 frac1 : Nat) : Nat × Nat × DecError :=
  if intg1 + frac1 > len then
    if intg1 > len then (len, 0, .overflow) else (intg1, len - intg1, .truncated)
  else (intg1, frac1, .ok)

/-- The full words of the integer part: the words written before, the digits before the
point, and the bytes that are left. Words that are zero are not written as long as there is
no other one. -/
def readIntWords (mask : Bool) :
    Nat → List Nat → Nat → List UInt8 → Option (List Nat × Nat × List UInt8)
  | 0, buf, intg, src => some (buf, intg, src)
  | n + 1, buf, intg, src =>
    let x := xorMask (miSintKorr (src.take sizeofDec1)) mask
    if x % 2 ^ 32 > digMax then none
    else if buf ≠ [] ∨ x ≠ 0 then
      readIntWords mask n (buf ++ [x.toNat]) intg (src.drop sizeofDec1)
    else readIntWords mask n buf (intg - digPerDec1) (src.drop sizeofDec1)

def readFracWords (mask : Bool) : Nat → List Nat → List UInt8 → Option (List Nat × List UInt8)
  | 0, buf, src => some (buf, src)
  | n + 1, buf, src =>
    let x := xorMask (miSintKorr (src.take sizeofDec1)) mask
    if x % 2 ^ 32 > digMax then none
    else readFracWords mask n (buf ++ [x.toNat]) (src.drop sizeofDec1)

def readIntx (mask : Bool) (intg0x intg : Nat) (src : List UInt8) :
    Option (List Nat × Nat × List UInt8) :=
  if 0 < intg0x then
    let i := dig2bytes intg0x
    let x := xorMask (miSintKorr (src.take i)) mask
    if x % 2 ^ 64 ≥ powers10 (intg0x + 1) then none
    else if x ≠ 0 then some ([x.toNat], intg, src.drop i)
    else some ([], intg - intg0x, src.drop i)
  else some ([], intg, src)

def readFracx (mask : Bool) (frac0x : Nat) (buf : List Nat) (src : List UInt8) :
    Option (List Nat) :=
  if 0 < frac0x then
    let x := xorMask (miSintKorr (src.take (dig2bytes frac0x))) mask
    let x := Int.bmod (x * powers10 (digPerDec1 - frac0x)) (2 ^ 32)
    if x % 2 ^ 32 > digMax then none else some (buf ++ [x.toNat])
  else some buf

def readGroups (mask : Bool) (intg0 intg0x frac0 frac0x : Nat) (src : List UInt8) :
    Option Decimal := do
  let intg := intg0 * digPerDec1 + intg0x
  let frac := frac0 * digPerDec1 + frac0x
  let (buf, intg, src) ← readIntx mask intg0x intg src
  let (buf, intg, src) ← readIntWords mask intg0 buf intg src
  let (buf, src) ← readFracWords mask frac0 buf src
  let buf ← readFracx mask frac0x buf src
  return ⟨intg, frac, mask, buf⟩

def bin2decimal (src : List UInt8) (len precision scale : Nat) : Decimal × DecError :=
  let intg := precision - scale
  let intg0 := intg / digPerDec1
  let frac0 := scale / digPerDec1
  let intg0x := intg - intg0 * digPerDec1
  let frac0x := scale - frac0 * digPerDec1
  let mask := src.headD 0 &&& 128 = 0
  let src := invertFirst (src.take (decimalBinSize precision scale))
  let words := intg0 + if 0 < intg0x then 1 else 0
  let (intg1, frac1, error) :=
    fixIntgFracError len words (frac0 + if 0 < frac0x then 1 else 0)
  let (src, intg0, intg0x, frac0, frac0x) :=
    if error = .ok then (src, intg0, intg0x, frac0, frac0x)
    else if intg1 < words then
      (src.drop (dig2bytes intg0x + sizeofDec1 * (intg0 - intg1)), intg1, 0, 0, 0)
    else (src, intg0, intg0x, frac1, 0)
  match readGroups mask intg0 intg0x frac0 frac0x src with
  | none => (decimalMakeZero, .badNum)
  | some d => (if d.intg = 0 ∧ d.frac = 0 then decimalMakeZero else d, error)

end MariaDB.Strings
