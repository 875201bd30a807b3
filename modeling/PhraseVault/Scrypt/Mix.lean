import PhraseVault.Digest.Hmac
import PhraseVault.Scrypt.Salsa20

/-!
# Scrypt

The password is stretched to one long row of blocks per lane, each row is mixed through a table of
its own earlier states, and the mixed rows salt the final stretch.
-/
namespace PhraseVault.Scrypt
open Salsa20 (Block)

/-- `2 ^ logN` table rows, `2 * blockSize` blocks in a row, and `lanes` rows. -/
structure Cost where
  logN : Nat
  blockSize : Nat
  lanes : Nat
  deriving DecidableEq

abbrev Row := Array Block

/-- Each block is chained to the one before it; `last` starts as the last block of the row. -/
def chain (row : Row) : Row :=
  (row.foldl (fun (acc : Block × Row) b =>
    let x := Salsa20.core (acc.1.xor b)
    (x, acc.2.push x)) (row.getD (row.size - 1) default, Array.emptyWithCapacity row.size)).2

/-- Blocks of even place come first. -/
def shuffle (row : Row) : Row :=
  let half := row.size / 2
  Array.ofFn fun i : Fin row.size =>
    row.getD (if i.val < half then 2 * i.val else 2 * (i.val - half) + 1) default

def mixRow (row : Row) : Row := shuffle (chain row)

def xorRow (a b : Row) : Row := Array.zipWith Block.xor a b

/-- The number that selects a table row. -/
def selector (row : Row) : Nat := (row.getD (row.size - 1) default).x₀.toNat

/-- Records `count` successive states of the row. -/
def fill : (count : Nat) → Row → Array Row → Row × Array Row
  | 0, row, table => (row, table)
  | count + 1, row, table => fill count (mixRow row) (table.push row)

/-- Mixes in `count` rows of the table, each picked by the state before it. -/
def blend (table : Array Row) : (count : Nat) → Row → Row
  | 0, row => row
  | count + 1, row =>
    blend table count (mixRow (xorRow row (table.getD (selector row % table.size) #[])))

def mixLane (rows : Nat) (row : Row) : Row :=
  let (row, table) := fill rows row (Array.emptyWithCapacity rows)
  blend table rows row

def blocksOf : (count : Nat) → List UInt32 → List Block
  | 0, _ => []
  | count + 1, words => Block.ofWords (words.take 16) :: blocksOf count (words.drop 16)

def rowBytes (row : Row) : Bytes :=
  row.toList.flatMap fun b => b.words.flatMap Bytes.ofWordLE

/-- The lanes of the stretched password, one after the other. -/
def mixLanes (cost : Cost) : (lanes : Nat) → Bytes → Bytes
  | 0, _ => []
  | lanes + 1, b =>
    let width := 128 * cost.blockSize
    let row := (blocksOf (2 * cost.blockSize) (Bytes.wordsLE (b.take width))).toArray
    rowBytes (mixLane (Nat.pow 2 cost.logN) row) ++ mixLanes cost lanes (b.drop width)

/-- Derives `length` bytes from a password and a salt. -/
def derive (cost : Cost) (password salt : Bytes) (length : Nat) : Bytes :=
  let lanes := Hmac.stretch password salt (128 * cost.blockSize * cost.lanes)
  Hmac.stretch password (mixLanes cost cost.lanes lanes) length

@[simp] theorem length_derive (cost : Cost) (password salt : Bytes) (length : Nat) :
    (derive cost password salt length).length = length := by
  simp [derive]

end PhraseVault.Scrypt
