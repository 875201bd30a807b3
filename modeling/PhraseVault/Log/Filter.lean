import PhraseVault.Pattern.Meaning
import PhraseVault.Vault.Event

/-!
# Log filters

A filter is a list of directives, separated by commas, and perhaps a slash and a pattern that
occurs in the messages. A directive is a level for everything, a name for all of a part of the
program, or a name and a level.
-/
namespace PhraseVault

namespace LogLevel

def name : LogLevel → String
  | error => "ERROR"
  | warn => "WARN"
  | info => "INFO"
  | debug => "DEBUG"
  | trace => "TRACE"

/-- How much is logged at a level: all that ranks no higher. -/
def rank : LogLevel → Nat
  | error => 1
  | warn => 2
  | info => 3
  | debug => 4
  | trace => 5

/-- A rank by its name in letters of either case; nothing ranks as low as `off`. -/
def rankOf? (name : String) : Option Nat :=
  match String.ofList (name.toList.map Char.toLower) with
  | "off" => some 0
  | "error" => some error.rank
  | "warn" => some warn.rank
  | "info" => some info.rank
  | "debug" => some debug.rank
  | "trace" => some trace.rank
  | _ => none

end LogLevel

structure LogFilter where
  /-- Ranks by the names they hold for, in the order given. -/
  ranks : List (Option String × Nat)
  /-- What has to occur in a message. -/
  pattern : Option Pattern.Expr

namespace LogFilter

/-- A filter as read, and the parts of it that say nothing. -/
structure Reading where
  filter : LogFilter
  objections : List String

def trim (s : String) : String :=
  String.ofList (((s.toList.dropWhile Unicode.isBlank).reverse.dropWhile Unicode.isBlank).reverse)

def objection (part : String) : String := s!"invalid logging spec '{part}'"

def readDirective (s : String) : Except String (Option String × Nat) :=
  match s.splitOn "=" with
  | [name] =>
    match LogLevel.rankOf? name with
    | some rank => .ok (none, rank)
    | none => .ok (some name, LogLevel.trace.rank)
  | [name, level] =>
    if trim level = "" then .ok (some name, LogLevel.trace.rank)
    else match LogLevel.rankOf? (trim level) with
      | some rank => .ok (some name, rank)
      | none => .error (objection (trim level))
  | _ => .error (objection s)

/-- A later directive for a name takes the place of an earlier one. -/
def addRank (name : Option String) (rank : Nat) :
    List (Option String × Nat) → List (Option String × Nat)
  | [] => [(name, rank)]
  | (n, r) :: rest => if n = name then (name, rank) :: rest else (n, r) :: addRank name rank rest

def addDirective (r : Reading) (part : String) : Reading :=
  if trim part = "" then r
  else match readDirective (trim part) with
    | .ok (name, rank) => { r with filter.ranks := addRank name rank r.filter.ranks }
    | .error o => { r with objections := r.objections ++ [o] }

def readDirectives (s : String) : Reading :=
  (s.splitOn ",").foldl addDirective ⟨⟨[], none⟩, []⟩

/-- A pattern that cannot be matched asks for nothing. -/
def addPattern (r : Reading) (text : String) : Reading :=
  match Pattern.compile text with
  | .ok e => { r with filter.pattern := some e }
  | .error f =>
    { r with objections := r.objections ++ [s!"invalid regex filter - {f.message text}"] }

def read (s : String) : Reading :=
  match s.splitOn "/" with
  | [directives] => readDirectives directives
  | [directives, text] => addPattern (readDirectives directives) text
  | _ => ⟨⟨[], none⟩, [objection s ++ " (too many '/'s)"]⟩

/-- The longest name that begins the topic decides. With no directives at all only errors pass. -/
def rankFor (f : LogFilter) (topic : LogTopic) : Nat :=
  if f.ranks.isEmpty then LogLevel.error.rank
  else
    let byLength := f.ranks.mergeSort fun a b =>
      (a.1.getD "").utf8ByteSize ≤ (b.1.getD "").utf8ByteSize
    match byLength.reverse.find? fun (name, _) => (name.getD "").toList <+: topic.name.toList with
    | some (_, rank) => rank
    | none => 0

def passes (f : LogFilter) (e : Vault.Event) : Bool :=
  e.level.rank ≤ f.rankFor e.topic && f.pattern.all (·.occursIn e.message.toList)

end LogFilter

/-- A level's name, filled up to five characters. -/
def LogLevel.column (l : LogLevel) : String := l.name ++ "".pushn ' ' (5 - l.name.length)

/-- An event as it is logged; the further lines of a message are indented. -/
def Vault.Event.line (e : Vault.Event) : String :=
  s!"[{e.level.column} {e.topic.name}] " ++ "\n    ".intercalate (e.message.splitOn "\n")

end PhraseVault
