import TensorParity.Json.Basic
import TensorParity.Decimal.Notation

/-!
Writes data trees as text, on one line or indented by two spaces. Strings escape quotes, backslashes
and control characters and nothing else.
-/
namespace TensorParity

namespace Json

namespace Printer

/-- What stands for one character of a string. -/
def escape (c : Char) : List Char :=
  if c = '"' then ['\\', '"']
  else if c = '\\' then ['\\', '\\']
  else if c = '\x08' then ['\\', 'b']
  else if c = '\t' then ['\\', 't']
  else if c = '\n' then ['\\', 'n']
  else if c = '\x0c' then ['\\', 'f']
  else if c = '\r' then ['\\', 'r']
  else if c.toNat < 0x20 then
    ['\\', 'u', '0', '0', Nat.digitChar (c.toNat / 16), Nat.digitChar (c.toNat % 16)]
  else [c]

/-- Appends characters to a text. -/
def put (out : String) (cs : List Char) : String :=
  cs.foldl String.push out

def putString (out : String) (s : String) : String :=
  (s.toList.foldl (fun out c => put out (escape c)) (out.push '"')).push '"'

def number : JsonNumber → List Char
  | .unsigned n => Decimal.digitChars n
  | .negative n => '-' :: Decimal.digitChars n
  | .real x => (Notation.data? x).getD ['n', 'u', 'l', 'l']

mutual

/-- Appends a value on one line. -/
def compact (out : String) : Json → String
  | .null => out ++ "null"
  | .bool b => out ++ (if b then "true" else "false")
  | .number n => put out (number n)
  | .string s => putString out s
  | .array items => (compactItems (out.push '[') true items).push ']'
  | .object fields _ => (compactFields (out.push '{') true fields).push '}'
  | .broken => out

def compactItems (out : String) (first : Bool) : List Json → String
  | [] => out
  | item :: rest => compactItems (compact (if first then out else out.push ',') item) false rest

def compactFields (out : String) (first : Bool) : List (String × Json) → String
  | [] => out
  | (key, value) :: rest =>
    let out := if first then out else out.push ','
    compactFields (compact ((putString out key).push ':') value) false rest

end

/-- Starts a line at a level. -/
def newline (out : String) (level : Nat) : String :=
  put (out.push '\n') (List.replicate (2 * level) ' ')

mutual

/-- Appends a value with each item and field on a line of its own. Empty containers stay closed
up. -/
def pretty (level : Nat) (out : String) : Json → String
  | .null => out ++ "null"
  | .bool b => out ++ (if b then "true" else "false")
  | .number n => put out (number n)
  | .string s => putString out s
  | .array [] => out ++ "[]"
  | .array (item :: rest) =>
    (newline (prettyItems (level + 1) (out.push '[') true (item :: rest)) level).push ']'
  | .object [] _ => (out.push '{').push '}'
  | .object (field :: rest) _ =>
    (newline (prettyFields (level + 1) (out.push '{') true (field :: rest)) level).push '}'
  | .broken => out

def prettyItems (level : Nat) (out : String) (first : Bool) : List Json → String
  | [] => out
  | item :: rest =>
    let out := newline (if first then out else out.push ',') level
    prettyItems level (pretty level out item) false rest

def prettyFields (level : Nat) (out : String) (first : Bool) : List (String × Json) → String
  | [] => out
  | (key, value) :: rest =>
    let out := newline (if first then out else out.push ',') level
    prettyFields level (pretty level (putString out key ++ ": ") value) false rest

end

end Printer

/-- The value on one line. -/
def text (j : Json) : String := Printer.compact "" j

/-- The value over several lines. -/
def prettyText (j : Json) : String := Printer.pretty 0 "" j

end Json

end TensorParity
