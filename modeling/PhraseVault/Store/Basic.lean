import Std.Data.ExtTreeMap
import PhraseVault.Bytes

/-!
# Record stores

A store keeps byte strings under text keys. Each call is a single attempt that succeeds or reports
why it did not; `keys` lists in increasing order and names what it passed over.
-/
namespace PhraseVault

/-- What the system says when a file operation fails. -/
inductive IoFault where
  | isDirectory
  | notDirectory
  | nameTooLong
  | tooManyLinks
  | notText
  | notFound
  | alreadyThere
  | busy
  | zeroByte
  | full
  deriving DecidableEq

def IoFault.message : IoFault → String
  | .isDirectory => "Is a directory (os error 21)"
  | .notDirectory => "Not a directory (os error 20)"
  | .nameTooLong => "File name too long (os error 36)"
  | .tooManyLinks => "Too many levels of symbolic links (os error 40)"
  | .notText => "stream did not contain valid UTF-8"
  | .notFound => "No such file or directory (os error 2)"
  | .alreadyThere => "File exists (os error 17)"
  | .busy => "Device or resource busy (os error 16)"
  | .zeroByte => "file name contained an unexpected NUL byte"
  | .full => "disk full"

/-- The keys of a store, and the names it could not make out. -/
structure Listing where
  keys : List String
  ignored : List String

class RecordStore (σ : Type) where
  get : String → σ → Except IoFault (Option Bytes) × σ
  set : String → Bytes → σ → Except IoFault Unit × σ
  delete : String → σ → Except IoFault Unit × σ
  keys : σ → Except IoFault Listing × σ

/-- Records kept in memory. -/
abbrev Records := Std.ExtTreeMap String Bytes

instance : RecordStore Records where
  get key r := (.ok r[key]?, r)
  set key value r := (.ok (), r.insert key value)
  delete key r := (.ok (), r.erase key)
  keys r := (.ok ⟨r.keys, []⟩, r)

end PhraseVault
