/-
# Type-checked reads for the documents a human writes

A configuration document is read through a `Reader`: a value of another type than the field's is
recorded as a message that names the key by its dotted path, the read yields the default, and
reading goes on.  The collector keeps the first message only.  So whether a document is usable is
decided once, at the end, by asking the collector, and nothing a document contains makes a read
fail in any other way.
-/
import Logosctl.Json

namespace Logosctl.JsonSchema

/-! ## 1. The collector -/

/-- What a value actually is, phrased for the "but got ..." half of a message. -/
def typeName : Json → String
  | .null => "nothing"
  | .obj _ => "a mapping"
  | .arr _ => "a list"
  | .str _ => "a string"
  | .bool _ => "true or false"
  | .int _ => "a whole number"
  | .float _ _ => "a decimal number"

/-- The first message noted; empty while the document is in order. -/
structure Errors where
  message : String := ""
  deriving DecidableEq, Repr

namespace Errors

def ok (errs : Errors) : Bool := errs.message.isEmpty

/-- The first message wins. -/
def note (message : String) (errs : Errors) : Errors :=
  if errs.message.isEmpty then ⟨message⟩ else errs

def mismatch (key expected : String) (got : Json) (errs : Errors) : Errors :=
  errs.note (key ++ ": expected " ++ expected ++ ", but got " ++ typeName got ++ ".")

end Errors

/-- A read that may note a message. -/
abbrev Checked := StateM Errors

def note (message : String) : Checked Unit := modify (Errors.note message)

def mismatch (key expected : String) (got : Json) : Checked Unit :=
  modify (Errors.mismatch key expected got)

/-- Nothing has been noted so far. -/
def allOk : Checked Bool := do
  let errs ← get
  return errs.ok

/-! ## 2. Reading one mapping -/

/-- One mapping, and its dotted path inside the document ("" at the top level, "logging." one
level down). -/
structure Reader where
  obj : Json
  dotted : String := ""

namespace Reader

variable (r : Reader)

/-- Full dotted path of `key`. -/
def path (key : String) : String := r.dotted ++ key

/-- A key that is absent, or present with nothing after it, is not set. -/
def present (key : String) : Option Json :=
  match r.obj.find? key with
  | none | some .null => none
  | some v => some v

def str (key : String) (dflt : String := "") : Checked String :=
  match r.present key with
  | none => return dflt
  | some (.str s) => return s
  | some v => do
    mismatch (r.path key) "a string" v
    return dflt

def boolean (key : String) (dflt : Bool) : Checked Bool :=
  match r.present key with
  | none => return dflt
  | some (.bool b) => return b
  | some v => do
    mismatch (r.path key) "true or false" v
    return dflt

/-- The signed 64-bit range. -/
def int64Min : Int := -2 ^ 63

@[inherit_doc int64Min] def int64Max : Int := 2 ^ 63 - 1

/-- Every integral field; a value out of range is reported the way a wrong type is. -/
def integer (key : String) (dflt : Int) (min : Int := int64Min) (max : Int := int64Max) :
    Checked Int :=
  match r.present key with
  | none => return dflt
  | some (.int i) =>
    -- an unsigned value past the signed range is reported before it is converted
    let tooBig := int64Max < i
    let n := if tooBig then 0 else i
    if tooBig ∨ n < min ∨ max < n then do
      note (r.path key ++ ": expected a whole number between " ++ toString min ++ " and " ++
        toString max ++ (if tooBig then "." else ", but got " ++ toString n ++ "."))
      return dflt
    else return n
  | some v => do
    mismatch (r.path key) "a whole number" v
    return dflt

/-- The elements of a list of strings, or the index and value of the first that is none. -/
def stringElems : Nat → List Json → Except (Nat × Json) (List String)
  | _, [] => .ok []
  | i, .str s :: es => (stringElems (i + 1) es).map (s :: ·)
  | i, e :: _ => .error (i, e)

def stringList (key : String) (dflt : List String := []) : Checked (List String) :=
  match r.present key with
  | none => return dflt
  | some (.arr es) =>
    match stringElems 0 es with
    | .ok out => return out
    | .error (i, e) => do
      mismatch (r.path key ++ "[" ++ toString i ++ "]") "a string" e
      return dflt
  | some v => do
    mismatch (r.path key) "a list of strings" v
    return dflt

/-- Nested mapping: none when the key is absent, none and a message when it is present with the
wrong type. -/
def mapping (key : String) (expected : String := "a mapping") :
    Checked (Option (List (String × Json))) :=
  match r.present key with
  | none => return none
  | some (.obj kvs) => return some kvs
  | some v => do
    mismatch (r.path key) expected v
    return none

@[inherit_doc mapping] def list (key : String) (expected : String := "a list") :
    Checked (Option (List Json)) :=
  match r.present key with
  | none => return none
  | some (.arr es) => return some es
  | some v => do
    mismatch (r.path key) expected v
    return none

end Reader

/-! ## 3. What a read yields -/

/-- Whatever has been noted before, what the read hands over has `P`. -/
def Yields {α : Type} (x : Checked α) (P : α → Prop) : Prop := ∀ errs, P (x.run errs).1

section Yields

variable {α β : Type} {P : α → Prop} {Q : β → Prop}

theorem yields_any (x : Checked α) : Yields x fun _ => True := fun _ => trivial

theorem yields_pure {a : α} (h : P a) : Yields (pure a : Checked α) P := fun _ => h

theorem yields_bind {x : Checked α} {f : α → Checked β} (hx : Yields x P)
    (hf : ∀ a, P a → Yields (f a) Q) : Yields (x >>= f) Q :=
  fun errs => hf _ (hx errs) (x.run errs).2

/-- What comes first does not matter. -/
theorem yields_after {x : Checked α} {f : α → Checked β} (hf : ∀ a, Yields (f a) Q) :
    Yields (x >>= f) Q := yields_bind (yields_any x) fun a _ => hf a

end Yields

/-! ## 4. Reads that note nothing -/

/-- With nothing noted before, the read hands over `a` and notes nothing. -/
def Reads {α : Type} (x : Checked α) (a : α) : Prop := x.run {} = (a, {})

section Reads

variable {α β : Type} {a : α} {b : β} {key s dflt : String} {r : Reader}

theorem reads_pure (a : α) : Reads (pure a : Checked α) a := rfl

theorem run_bind (x : Checked α) (f : α → Checked β) (errs : Errors) :
    (x >>= f).run errs = (f (x.run errs).1).run (x.run errs).2 := rfl

/-- What a read hands over is what goes on. -/
theorem run_bind_of_reads {x : Checked α} (hx : Reads x a) (f : α → Checked β) :
    (x >>= f).run {} = (f a).run {} := by
  rw [run_bind, show x.run {} = (a, {}) from hx]

theorem reads_bind {x : Checked α} {f : α → Checked β} (hx : Reads x a) (hf : Reads (f a) b) :
    Reads (x >>= f) b :=
  (run_bind_of_reads hx f).trans hf

theorem reads_of_bind {x : Checked α} {f : α → Checked β} (hx : Reads x a)
    (h : Reads (x >>= f) b) : Reads (f a) b :=
  (run_bind_of_reads hx f).symm.trans h

theorem reads_allOk : Reads allOk true := rfl

theorem reads_str (h : r.obj.find? key = some (.str s)) : Reads (r.str key dflt) s := by
  simp only [Reader.str, Reader.present, h]
  exact reads_pure s

theorem reads_str_absent (h : r.obj.find? key = none) : Reads (r.str key dflt) dflt := by
  simp only [Reader.str, Reader.present, h]
  exact reads_pure dflt

/-- A string that is left out when it is empty. -/
theorem reads_str_nonEmpty (h : r.obj.find? key = if s.isEmpty then none else some (.str s)) :
    Reads (r.str key) s := by
  split at h
  · next hempty =>
    rw [String.isEmpty_iff.mp hempty]
    exact reads_str_absent h
  · exact reads_str h

theorem reads_boolean {v dflt : Bool} (h : r.obj.find? key = some (.bool v)) :
    Reads (r.boolean key dflt) v := by
  simp only [Reader.boolean, Reader.present, h]
  exact reads_pure v

theorem reads_boolean_absent {dflt : Bool} (h : r.obj.find? key = none) :
    Reads (r.boolean key dflt) dflt := by
  simp only [Reader.boolean, Reader.present, h]
  exact reads_pure dflt

theorem reads_integer {i dflt min max : Int} (h : r.obj.find? key = some (.int i))
    (hmin : min ≤ i) (hmax : i ≤ max) (hrange : i ≤ Reader.int64Max) :
    Reads (r.integer key dflt min max) i := by
  have htooBig : ¬ Reader.int64Max < i := by omega
  have hin : ¬ (Reader.int64Max < i ∨ i < min ∨ max < i) := by omega
  simp only [Reader.integer, Reader.present, h, if_neg htooBig, if_neg hin]
  exact reads_pure i

theorem reads_integer_absent {dflt min max : Int} (h : r.obj.find? key = none) :
    Reads (r.integer key dflt min max) dflt := by
  simp only [Reader.integer, Reader.present, h]
  exact reads_pure dflt

theorem stringElems_map (ss : List String) : ∀ i,
    Reader.stringElems i (ss.map Json.str) = .ok ss := by
  induction ss with
  | nil => exact fun _ => rfl
  | cons s ss ih =>
    intro i
    rw [List.map_cons, Reader.stringElems, ih]
    rfl

theorem reads_stringList (ss : List String) {dflt : List String}
    (h : r.obj.find? key = some (.arr (ss.map Json.str))) :
    Reads (r.stringList key dflt) ss := by
  simp only [Reader.stringList, Reader.present, h, stringElems_map]
  exact reads_pure ss

theorem reads_mapping {kvs : List (String × Json)} {expected : String}
    (h : r.obj.find? key = some (.obj kvs)) : Reads (r.mapping key expected) (some kvs) := by
  simp only [Reader.mapping, Reader.present, h]
  exact reads_pure _

theorem reads_mapping_absent {expected : String} (h : r.obj.find? key = none) :
    Reads (r.mapping key expected) none := by
  simp only [Reader.mapping, Reader.present, h]
  exact reads_pure _

theorem reads_list {es : List Json} {expected : String}
    (h : r.obj.find? key = some (.arr es)) : Reads (r.list key expected) (some es) := by
  simp only [Reader.list, Reader.present, h]
  exact reads_pure _

end Reads

/-! ## 5. What has been noted stays -/

/-- A read made after something was noted does not take it back. -/
def Keeps {α : Type} (x : Checked α) : Prop := ∀ errs, (x.run errs).2.ok = true → errs = {}

section Keeps

variable {α β : Type} {r : Reader} {key : String}

theorem errors_eq {errs : Errors} (h : errs.ok = true) : errs = {} := by
  obtain ⟨message⟩ := errs
  exact congrArg Errors.mk (String.isEmpty_iff.mp h)

theorem keeps_pure (a : α) : Keeps (pure a : Checked α) := fun _ => errors_eq

theorem keeps_bind {x : Checked α} {f : α → Checked β} (hx : Keeps x) (hf : ∀ a, Keeps (f a)) :
    Keeps (x >>= f) := by
  intro errs h
  have hmid : (x.run errs).2 = {} := hf (x.run errs).1 (x.run errs).2 h
  exact hx errs (by rw [hmid]; rfl)

theorem keeps_note (message : String) : Keeps (note message) := by
  intro errs h
  refine errors_eq ?_
  cases hok : errs.ok with
  | true => rfl
  | false =>
    -- the first message is still there
    have hsame : Errors.note message errs = errs :=
      if_neg (by rw [show errs.message.isEmpty = false from hok]; exact Bool.false_ne_true)
    rw [← hok, ← hsame]
    exact h

theorem keeps_mismatch (key expected : String) (got : Json) :
    Keeps (mismatch key expected got) := keeps_note _

theorem keeps_ite {c : Prop} [Decidable c] {x y : Checked α} (hx : Keeps x) (hy : Keeps y) :
    Keeps (if c then x else y) := by
  split
  · exact hx
  · exact hy

theorem keeps_allOk : Keeps allOk := fun _ => errors_eq

theorem keeps_str (dflt : String) : Keeps (r.str key dflt) := by
  unfold Reader.str
  split
  · exact keeps_pure _
  · exact keeps_pure _
  · exact keeps_bind (keeps_mismatch _ _ _) fun _ => keeps_pure _

theorem keeps_boolean (dflt : Bool) : Keeps (r.boolean key dflt) := by
  unfold Reader.boolean
  split
  · exact keeps_pure _
  · exact keeps_pure _
  · exact keeps_bind (keeps_mismatch _ _ _) fun _ => keeps_pure _

theorem keeps_integer (dflt min max : Int) : Keeps (r.integer key dflt min max) := by
  unfold Reader.integer
  split
  · exact keeps_pure _
  · refine keeps_ite (keeps_bind (keeps_note _) fun _ => keeps_pure _) (keeps_pure _)
  · exact keeps_bind (keeps_mismatch _ _ _) fun _ => keeps_pure _

/-- A read that noted nothing is made of reads that noted nothing. -/
theorem reads_bind_inv {x : Checked α} {f : α → Checked β} {b : β} (hf : ∀ a, Keeps (f a))
    (h : Reads (x >>= f) b) : ∃ a, Reads x a ∧ Reads (f a) b := by
  have hrun : (f (x.run {}).1).run (x.run {}).2 = (b, {}) := h
  have hmid : (x.run {}).2 = {} := hf _ _ (by rw [hrun]; rfl)
  refine ⟨(x.run {}).1, Prod.ext rfl hmid, ?_⟩
  rw [hmid] at hrun
  exact hrun

/-- A message is never empty. -/
theorem not_reads_note {message : String} {f : Unit → Checked α} {a : α} (hmessage : message ≠ "")
    (hf : ∀ u, Keeps (f u)) : ¬ Reads (note message >>= f) a := by
  intro h
  obtain ⟨u, hnote, -⟩ := reads_bind_inv hf h
  have hempty : (⟨message⟩ : Errors) = {} := congrArg Prod.snd hnote
  exact hmessage (congrArg Errors.message hempty)

/-- An integer that is read is in range. -/
theorem range_of_reads_integer {dflt min max v i : Int} (h : Reads (r.integer key dflt min max) v)
    (hfind : r.obj.find? key = some (.int i)) : min ≤ i ∧ i ≤ max := by
  simp only [Reader.integer, Reader.present, hfind] at h
  by_cases htooBig : Reader.int64Max < i
  · rw [if_pos (Or.inl htooBig)] at h
    exact absurd h (not_reads_note (by simp) fun _ => keeps_pure _)
  · by_cases hin : Reader.int64Max < i ∨ i < min ∨ max < i
    · simp only [if_neg htooBig, if_pos hin] at h
      exact absurd h (not_reads_note (by simp) fun _ => keeps_pure _)
    · omega

end Keeps

end Logosctl.JsonSchema
