/-
# Which keys a reader looks at

A reader asks for the keys it knows and never notices the others.  A `Schema` says which keys are
asked for where; `prune` takes the others out of a document, and the readers cannot tell the
difference (`str_prune` and its siblings).  So what a loader makes of a document is what it makes of
the document without the keys it never looks at.
-/
import Logosctl.JsonSchema

namespace Logosctl.JsonSchema

/-! ## 1. Schemas -/

/-- What is looked at below a value: nothing, the elements of a list, some keys of a mapping, every
named entry of a mapping, or whichever of a list and a mapping is there. -/
inductive Schema
  | leaf
  | list (elem : Schema)
  | fields (read : List (String × Schema))
  | named (value : Schema)
  | listOrFields (elem : Schema) (read : List (String × Schema))

namespace Schema

/-- The schema of an element. -/
def elem : Schema → Schema
  | list s | listOrFields s _ => s
  | _ => leaf

/-- The schema under a key, when it is looked at. -/
def field? : Schema → String → Option Schema
  | fields read, key | listOrFields _ read, key => read.lookup key
  | named s, key => if key.isEmpty then none else some s
  | _, _ => none

end Schema

mutual

/-- Every key, at every depth, is one that is looked at there. -/
def allRead : Schema → Json → Bool
  | s, .obj kvs => allReadMembers s kvs
  | s, .arr es => allReadElems s.elem es
  | _, _ => true

def allReadElems : Schema → List Json → Bool
  | _, [] => true
  | s, e :: es => allRead s e && allReadElems s es

def allReadMembers : Schema → List (String × Json) → Bool
  | _, [] => true
  | s, (k, v) :: kvs =>
    (match s.field? k with
      | some child => allRead child v
      | none => false) && allReadMembers s kvs

end

mutual

/-- The document without the keys that are not looked at. -/
def prune : Schema → Json → Json
  | s, .obj kvs => .obj (pruneMembers s kvs)
  | s, .arr es => .arr (pruneElems s.elem es)
  | _, .null => .null
  | _, .bool b => .bool b
  | _, .int i => .int i
  | _, .float m e => .float m e
  | _, .str s => .str s

def pruneElems : Schema → List Json → List Json
  | _, [] => []
  | s, e :: es => prune s e :: pruneElems s es

def pruneMembers : Schema → List (String × Json) → List (String × Json)
  | _, [] => []
  | s, (k, v) :: kvs =>
    match s.field? k with
    | some child => (k, prune child v) :: pruneMembers s kvs
    | none => pruneMembers s kvs

end

/-! ## 2. The readers on a pruned document -/

section Prune

variable {s child : Schema} {obj : Json} {dotted key : String}

theorem prune_obj (s : Schema) (kvs : List (String × Json)) :
    prune s (.obj kvs) = .obj (pruneMembers s kvs) := by
  rw [prune]

theorem lookup_pruneMembers (h : s.field? key = some child) (kvs : List (String × Json)) :
    (pruneMembers s kvs).lookup key = (kvs.lookup key).map (prune child) := by
  induction kvs with
  | nil => rfl
  | cons kv kvs ih =>
    obtain ⟨k, v⟩ := kv
    rw [pruneMembers]
    by_cases hk : key = k
    · subst hk
      rw [h, List.lookup_cons, List.lookup_cons, beq_self_eq_true]
      rfl
    · have hne : (key == k) = false := beq_eq_false_iff_ne.mpr hk
      rw [List.lookup_cons, hne, ← ih]
      cases s.field? k with
      | none => rfl
      | some other => rw [List.lookup_cons, hne]

theorem find?_prune (h : s.field? key = some child) :
    (prune s obj).find? key = (obj.find? key).map (prune child) := by
  cases obj with
  | obj kvs => exact lookup_pruneMembers h kvs
  | _ => rfl

/-- What is there is what was there, pruned. -/
theorem present_prune (h : s.field? key = some child) :
    Reader.present ⟨prune s obj, dotted⟩ key =
      (Reader.present ⟨obj, dotted⟩ key).map (prune child) := by
  simp only [Reader.present, find?_prune h]
  rcases obj.find? key with _ | ⟨_ | _ | _ | _ | _ | _ | _⟩ <;> rfl

theorem isObject_prune : (prune s obj).isObject = obj.isObject := by
  cases obj <;> rfl

theorem typeName_prune : typeName (prune s obj) = typeName obj := by
  cases obj <;> rfl

theorem mismatch_prune (expected : String) :
    mismatch key expected (prune s obj) = mismatch key expected obj := by
  have hsame : Errors.mismatch key expected (prune s obj) = Errors.mismatch key expected obj := by
    funext errs
    simp only [Errors.mismatch, typeName_prune]
  rw [mismatch, mismatch, hsame]

theorem str_prune (h : s.field? key = some child) (dflt : String) :
    Reader.str ⟨prune s obj, dotted⟩ key dflt = Reader.str ⟨obj, dotted⟩ key dflt := by
  simp only [Reader.str, present_prune h, Reader.path]
  rcases Reader.present ⟨obj, dotted⟩ key with _ | ⟨_ | _ | _ | _ | _ | _ | _⟩ <;> rfl

theorem boolean_prune (h : s.field? key = some child) (dflt : Bool) :
    Reader.boolean ⟨prune s obj, dotted⟩ key dflt = Reader.boolean ⟨obj, dotted⟩ key dflt := by
  simp only [Reader.boolean, present_prune h, Reader.path]
  rcases Reader.present ⟨obj, dotted⟩ key with _ | ⟨_ | _ | _ | _ | _ | _ | _⟩ <;> rfl

theorem integer_prune (h : s.field? key = some child) (dflt min max : Int) :
    Reader.integer ⟨prune s obj, dotted⟩ key dflt min max =
      Reader.integer ⟨obj, dotted⟩ key dflt min max := by
  simp only [Reader.integer, present_prune h, Reader.path]
  rcases Reader.present ⟨obj, dotted⟩ key with _ | ⟨_ | _ | _ | _ | _ | _ | _⟩ <;> rfl

/-- Strings stay, and what is none stays what it is. -/
theorem stringElems_pruneElems (es : List Json) : ∀ i,
    Reader.stringElems i (pruneElems s es) =
      (Reader.stringElems i es).mapError fun (i, e) => (i, prune s e) := by
  induction es with
  | nil => exact fun _ => rfl
  | cons e es ih =>
    intro i
    cases e with
    | str x =>
      rw [pruneElems, prune, Reader.stringElems, Reader.stringElems, ih]
      cases Reader.stringElems (i + 1) es <;> rfl
    | _ => rfl

theorem stringList_prune (h : s.field? key = some child) (dflt : List String) :
    Reader.stringList ⟨prune s obj, dotted⟩ key dflt =
      Reader.stringList ⟨obj, dotted⟩ key dflt := by
  simp only [Reader.stringList, present_prune h, Reader.path]
  rcases Reader.present ⟨obj, dotted⟩ key with _ | ⟨_ | _ | _ | _ | _ | es | _⟩
  case some.arr =>
    simp only [Option.map_some, prune, stringElems_pruneElems]
    rcases Reader.stringElems 0 es with ⟨i, e⟩ | out
    · exact congrArg (fun noted : Checked Unit => do noted; return dflt) (mismatch_prune _)
    · rfl
  all_goals rfl

theorem mapping_prune (h : s.field? key = some child) (expected : String) :
    Reader.mapping ⟨prune s obj, dotted⟩ key expected =
      Option.map (pruneMembers child) <$> Reader.mapping ⟨obj, dotted⟩ key expected := by
  simp only [Reader.mapping, present_prune h, Reader.path]
  rcases Reader.present ⟨obj, dotted⟩ key with _ | ⟨_ | _ | _ | _ | _ | _ | _⟩ <;> rfl

theorem list_prune (h : s.field? key = some child) (expected : String) :
    Reader.list ⟨prune s obj, dotted⟩ key expected =
      Option.map (pruneElems child.elem) <$> Reader.list ⟨obj, dotted⟩ key expected := by
  simp only [Reader.list, present_prune h, Reader.path]
  rcases Reader.present ⟨obj, dotted⟩ key with _ | ⟨_ | _ | _ | _ | _ | _ | _⟩ <;> rfl

end Prune

end Logosctl.JsonSchema
