/-!
# Byte strings and the words they are read as
-/
namespace PhraseVault

abbrev Bytes := List UInt8

namespace Bytes

/-- Combines the bytes that stand opposite each other; the longer tail is dropped. -/
def xor (a b : Bytes) : Bytes := List.zipWith (· ^^^ ·) a b

@[simp] theorem length_xor (a b : Bytes) : (xor a b).length = min a.length b.length := by
  simp [xor]

/-- Appends zero bytes up to length `n`; longer strings stay as they are. -/
def zeroFill (n : Nat) (b : Bytes) : Bytes := b ++ List.replicate (n - b.length) 0

@[simp] theorem length_zeroFill (n : Nat) (b : Bytes) :
    (zeroFill n b).length = max n b.length := by
  simp [zeroFill]; omega

/-- The four bytes of a word, most significant first. -/
def ofWordBE (w : UInt32) : Bytes :=
  [(w >>> 24).toUInt8, (w >>> 16).toUInt8, (w >>> 8).toUInt8, w.toUInt8]

@[simp] theorem length_ofWordBE (w : UInt32) : (ofWordBE w).length = 4 := rfl

/-- The four bytes of a word, least significant first. -/
def ofWordLE (w : UInt32) : Bytes := (ofWordBE w).reverse

def wordBE (a b c d : UInt8) : UInt32 :=
  (a.toUInt32 <<< 24) ||| (b.toUInt32 <<< 16) ||| (c.toUInt32 <<< 8) ||| d.toUInt32

/-- The whole words of a byte string, most significant byte first; a shorter tail is dropped. -/
def wordsBE : Bytes → List UInt32
  | a :: b :: c :: d :: rest => wordBE a b c d :: wordsBE rest
  | _ => []

/-- The whole words of a byte string, least significant byte first. -/
def wordsLE : Bytes → List UInt32
  | a :: b :: c :: d :: rest => wordBE d c b a :: wordsLE rest
  | _ => []

/-- The `width` low bytes of a number, most significant first. -/
def ofNatBE : (width n : Nat) → Bytes
  | 0, _ => []
  | width + 1, n => ofNatBE width (n / 256) ++ [UInt8.ofNat n]

/-- The number a byte string spells, most significant byte first. -/
def toNatBE (b : Bytes) : Nat := b.foldl (fun n x => n * 256 + x.toNat) 0

/-- Equality that looks at every byte of two strings of one length. -/
def sameBytes (a b : Bytes) : Bool :=
  a.length == b.length && (xor a b).foldl (· ||| ·) 0 == 0

end Bytes
end PhraseVault
