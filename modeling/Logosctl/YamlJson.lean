/-
# YAML text into JSON

Files a human edits are YAML; the schema work is done on JSON, so the format stops here.  The
YAML parser and its scalar conversions are code outside this repository: `YamlCpp` is what it
answers.  What this repository adds is the order in which a scalar is tried as each type, and the
object a mapping becomes.
-/
import Logosctl.Json

namespace Logosctl.YamlJson

/-! ## 1. What the YAML parser hands over -/

/-- A YAML node.  The tag of a scalar is `!` when the author quoted it. -/
inductive Node
  | null
  | scalar (tag value : String)
  | sequence (children : List Node)
  | map (members : List (Node × Node))

/-- The YAML parser: a document's root or the message of its exception, the text of a node used
as a key, and the conversions of a scalar. -/
structure YamlCpp where
  load : String → Except String Node
  asString : Node → Except String String
  toBool : String → Option Bool
  toInt64 : String → Option Int
  toDouble : String → Option (Int × Int)

/-! ## 2. Scalars and nodes -/

variable (yaml : YamlCpp)

/-- An explicitly quoted scalar is a string by construction, whatever it looks like. -/
def scalarToJson (tag value : String) : Json :=
  if tag = "!" then .str value
  else
    match yaml.toBool value, yaml.toInt64 value, yaml.toDouble value with
    | some b, _, _ => .bool b
    | none, some i, _ => .int i
    | none, none, some (m, e) => .float m e
    | none, none, none =>
      -- `key:` with nothing after it is null, not the empty string
      if value.isEmpty ∨ value = "~" ∨ value = "null" then .null else .str value

/-- `obj[key] = value`, members in key order. -/
def assign (key : String) (value : Json) : List (String × Json) → List (String × Json)
  | [] => [(key, value)]
  | m :: ms =>
    if key < m.1 then (key, value) :: m :: ms
    else if key = m.1 then (key, value) :: ms
    else m :: assign key value ms

mutual

def nodeToJson : Node → Except String Json
  | .null => .ok .null
  | .scalar tag value => .ok (scalarToJson yaml tag value)
  | .sequence children => (sequenceToJson children).map .arr
  | .map members => (mapToJson members []).map .obj

def sequenceToJson : List Node → Except String (List Json)
  | [] => .ok []
  | child :: children => do
    let e ← nodeToJson child
    let es ← sequenceToJson children
    return e :: es

def mapToJson : List (Node × Node) → List (String × Json) → Except String (List (String × Json))
  | [], obj => .ok obj
  | (k, v) :: members, obj => do
    let value ← nodeToJson v
    let key ← yaml.asString k
    mapToJson members (assign key value obj)

end

/-! ## 3. Documents -/

/-- `yaml_json::parse`.  An empty document says nothing, and is an empty mapping. -/
def parse (text : String) : Except String Json := do
  match ← yaml.load text with
  | .null => return .obj []
  | root => nodeToJson yaml root

end Logosctl.YamlJson
