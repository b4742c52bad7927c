/-
# JSON as text

`dump(4)` of `nlohmann::json`, the layout of every JSON file that the program writes: members in
key order, one on a line.  The characters that cannot stand in a string are escaped, and no others;
the text of a double is the library's own affair and is a parameter.
-/
import Logosctl.Json

namespace Logosctl.Json

/-- A character of a string, as it stands between the quotes. -/
def escaped (c : Char) : List Char :=
  if c = '"' ∨ c = '\\' then ['\\', c]
  else if c = '\n' then ['\\', 'n']
  else if c = '\r' then ['\\', 'r']
  else if c = '\t' then ['\\', 't']
  else if c.toNat = 8 then ['\\', 'b']
  else if c.toNat = 12 then ['\\', 'f']
  else if c.toNat < 32 then
    ['\\', 'u', '0', '0', Nat.digitChar (c.toNat / 16), Nat.digitChar (c.toNat % 16)]
  else [c]

def quoted (s : String) : String := "\"" ++ String.ofList (s.toList.flatMap escaped) ++ "\""

/-- The blanks in front of a line. -/
def pad (indent : Nat) : String := String.ofList (List.replicate indent ' ')

/-- Lines between brackets, each with its blanks. -/
def block (opening closing : String) (indent : Nat) (lines : List String) : String :=
  if lines.isEmpty then opening ++ closing
  else
    opening ++ "\n" ++ ",\n".intercalate (lines.map (pad (indent + 4) ++ ·)) ++ "\n" ++
      pad indent ++ closing

section Dump

variable (doubleText : Int → Int → String)

mutual

/-- The text of a value that begins behind `indent` blanks. -/
def dumpAt (indent : Nat) : Json → String
  | .null => "null"
  | .bool b => if b then "true" else "false"
  | .int i => toString i
  | .float m e => doubleText m e
  | .str s => quoted s
  | .arr xs => block "[" "]" indent (dumpElems (indent + 4) xs)
  | .obj kvs => block "\x7b" "\x7d" indent (dumpMembers (indent + 4) kvs)

def dumpElems (indent : Nat) : List Json → List String
  | [] => []
  | x :: xs => dumpAt indent x :: dumpElems indent xs

def dumpMembers (indent : Nat) : List (String × Json) → List String
  | [] => []
  | (k, v) :: kvs => (quoted k ++ ": " ++ dumpAt indent v) :: dumpMembers indent kvs

end

/-- `dump(4)`. -/
def dump4 (j : Json) : String := dumpAt doubleText 0 j

end Dump

example : dump4 (fun _ _ => "") (.obj [("a", .arr [.int 1, .str "x\n"]), ("b", .obj [])]) =
    "\x7b\n    \"a\": [\n        1,\n        \"x\\n\"\n    ],\n    \"b\": \x7b\x7d\n\x7d" := by
  decide +kernel

end Logosctl.Json
