/-!
# Minted owner ids

An id is the time in milliseconds followed by six digits of chance. It labels a wallet and holds
nothing secret.
-/
namespace PhraseVault.OwnerId

/-- Decimal digits of a number, filled up with zeros on the left to the given width. -/
def digits (width n : Nat) : List Char :=
  let ds := Nat.toDigits 10 n
  List.replicate (width - ds.length) '0' ++ ds

def mint (millis chance : Nat) : String :=
  String.ofList (Nat.toDigits 10 millis ++ digits 6 (chance % 1000000))

end PhraseVault.OwnerId
