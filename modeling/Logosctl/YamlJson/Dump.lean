/-
# JSON into YAML text, and back

The other direction of the bridge.  A document is handed to the YAML emitter, which writes it down;
a string goes out bare unless the reader would then take it for something else, and that is decided
by a predicate of its own, `plainWouldChangeType`, beside the cascade `scalarToJson` reads with.
The emitter is code outside this repository as the parser is: `YamlPair` is the two, and
`Emitted.node` is the document that what was emitted stands for.

The result is that the two predicates are each other's mirror: whatever document the emitter and
the parser carry between them, its strings come back as they were and its numbers as their text
reads (`parse_dump`), so a document of strings, booleans, nulls and 64-bit integers comes back whole
(`yaml_round_trip`).
-/
import Logosctl.YamlJson
import Mathlib.Data.String.Basic

namespace Logosctl.YamlJson

/-! ## 1. What is handed to the YAML emitter -/

/-- What is streamed into the emitter: the members between `BeginMap` and `EndMap`, each a `Key`
and its `Value`, the elements between `BeginSeq` and `EndSeq`, and scalars, of which a string may
stand after `DoubleQuoted`. -/
inductive Emitted
  | map (members : List (String × Emitted))
  | seq (elems : List Emitted)
  | doubleQuoted (s : String)
  | str (s : String)
  | bool (b : Bool)
  | int (i : Int)
  | double (m e : Int)
  | null

/-- The YAML parser and the emitter: the text written, whether a string can stand as a plain
scalar, and the text of a double. -/
structure YamlPair extends YamlCpp where
  write : Emitted → String
  isPlain : String → Bool
  doubleText : Int → Int → String

variable (yaml : YamlPair)

/-- Whether `s`, emitted as a bare scalar, would read back as something other than a string. -/
def plainWouldChangeType (s : String) : Bool :=
  s.isEmpty || s == "~" || s == "null" ||
    (yaml.toBool s).isSome || (yaml.toInt64 s).isSome || (yaml.toDouble s).isSome

mutual

def emit : Json → Emitted
  | .obj kvs => .map (emitMembers kvs)
  | .arr es => .seq (emitElems es)
  | .str s => if plainWouldChangeType yaml s then .doubleQuoted s else .str s
  | .bool b => .bool b
  | .int i => .int i
  | .float m e => .double m e
  | .null => .null

def emitElems : List Json → List Emitted
  | [] => []
  | e :: es => emit e :: emitElems es

def emitMembers : List (String × Json) → List (String × Emitted)
  | [] => []
  | (k, v) :: kvs => (k, emit v) :: emitMembers kvs

end

/-- The text ends in a newline. -/
def withNewline (s : String) : String :=
  if !s.isEmpty && s.back != '\n' then s.push '\n' else s

def dump (value : Json) : String := withNewline (yaml.write (emit yaml value))

/-! ## 2. What the emitter and the parser carry -/

/-- A string as the parser sees it: the emitter quotes what cannot stand as a plain scalar. -/
def strNode (s : String) : Node := .scalar (if yaml.isPlain s then "?" else "!") s

mutual

/-- The document that what was emitted stands for. -/
def Emitted.node : Emitted → Node
  | .map members => .map (nodeMembers members)
  | .seq elems => .sequence (nodeElems elems)
  | .doubleQuoted s => .scalar "!" s
  | .str s => strNode yaml s
  | .bool b => .scalar "?" (if b then "true" else "false")
  | .int i => .scalar "?" (toString i)
  | .double m e => .scalar "?" (yaml.doubleText m e)
  | .null => .null

def nodeElems : List Emitted → List Node
  | [] => []
  | e :: es => e.node :: nodeElems es

def nodeMembers : List (String × Emitted) → List (Node × Node)
  | [] => []
  | (k, v) :: members => (strNode yaml k, v.node) :: nodeMembers members

end

/-- What is written is read as the document it stands for, also with a newline after it. -/
def Carries (value : Emitted) : Prop :=
  yaml.load (yaml.write value) = .ok (value.node yaml) ∧
    yaml.load ((yaml.write value).push '\n') = .ok (value.node yaml)

/-- What the conversions of a scalar make of the text the emitter gives a bool or a signed 64-bit
integer, and of a scalar used as a key. -/
structure ReadsScalars : Prop where
  key : ∀ tag s, yaml.asString (.scalar tag s) = .ok s
  bool : ∀ b : Bool, yaml.toBool (if b then "true" else "false") = some b
  notBool : ∀ i : Int, yaml.toBool (toString i) = none
  int : ∀ i : Int, -2 ^ 63 ≤ i → i < 2 ^ 63 → yaml.toInt64 (toString i) = some i

mutual

/-- The document that comes back: what is no string is what its text reads as. -/
def reread : Json → Json
  | .null => .null
  | .bool b => scalarToJson yaml.toYamlCpp "?" (if b then "true" else "false")
  | .int i => scalarToJson yaml.toYamlCpp "?" (toString i)
  | .float m e => scalarToJson yaml.toYamlCpp "?" (yaml.doubleText m e)
  | .str s => .str s
  | .arr es => .arr (rereadElems es)
  | .obj kvs => .obj (rereadMembers kvs)

def rereadElems : List Json → List Json
  | [] => []
  | e :: es => reread e :: rereadElems es

def rereadMembers : List (String × Json) → List (String × Json)
  | [] => []
  | (k, v) :: kvs => (k, reread v) :: rereadMembers kvs

end

/-! ## 3. The round trip -/

/-- A value as the parser hands it over: integers of 64 bits, and members in key order. -/
inductive Held : Json → Prop
  | null : Held .null
  | bool (b : Bool) : Held (.bool b)
  | int (i : Int) : -2 ^ 63 ≤ i → i < 2 ^ 63 → Held (.int i)
  | float (m e : Int) : Held (.float m e)
  | str (s : String) : Held (.str s)
  | arr (es : List Json) : (∀ e ∈ es, Held e) → Held (.arr es)
  | obj (kvs : List (String × Json)) : kvs.Pairwise (fun a b => a.1 < b.1) →
      (∀ kv ∈ kvs, Held kv.2) → Held (.obj kvs)

/-- A document of objects, arrays, strings, booleans, nulls and signed 64-bit integers. -/
inductive Storable : Json → Prop
  | null : Storable .null
  | bool (b : Bool) : Storable (.bool b)
  | int (i : Int) : -2 ^ 63 ≤ i → i < 2 ^ 63 → Storable (.int i)
  | str (s : String) : Storable (.str s)
  | arr (es : List Json) : (∀ e ∈ es, Storable e) → Storable (.arr es)
  | obj (kvs : List (String × Json)) : kvs.Pairwise (fun a b => a.1 < b.1) →
      (∀ kv ∈ kvs, Storable kv.2) → Storable (.obj kvs)

theorem held_of_storable {v : Json} (h : Storable v) : Held v := by
  induction h with
  | null => exact .null
  | bool b => exact .bool b
  | int i hmin hmax => exact .int i hmin hmax
  | str s => exact .str s
  | arr es _ ih => exact .arr es ih
  | obj kvs hsorted _ ih => exact .obj kvs hsorted ih

section Assign

variable {key : String} {value : Json} {kvs : List (String × Json)}

theorem mem_assign {kv : String × Json} (h : kv ∈ assign key value kvs) :
    kv = (key, value) ∨ kv ∈ kvs := by
  induction kvs with
  | nil => exact Or.inl (List.mem_singleton.mp h)
  | cons m ms ih =>
    unfold assign at h
    split_ifs at h
    · exact List.mem_cons.mp h
    · exact (List.mem_cons.mp h).imp_right (List.mem_cons_of_mem m)
    · rcases List.mem_cons.mp h with rfl | h
      · exact Or.inr List.mem_cons_self
      · exact (ih h).imp_right (List.mem_cons_of_mem m)

theorem sorted_assign (h : kvs.Pairwise fun a b => a.1 < b.1) :
    (assign key value kvs).Pairwise fun a b => a.1 < b.1 := by
  induction kvs with
  | nil => exact List.pairwise_singleton _ _
  | cons m ms ih =>
    obtain ⟨hm, hms⟩ := List.pairwise_cons.mp h
    unfold assign
    split_ifs with hlt heq
    · refine List.pairwise_cons.mpr ⟨?_, h⟩
      intro kv hkv
      rcases List.mem_cons.mp hkv with rfl | hkv
      · exact hlt
      · exact hlt.trans (hm kv hkv)
    · exact List.pairwise_cons.mpr ⟨heq ▸ hm, hms⟩
    · refine List.pairwise_cons.mpr ⟨?_, ih hms⟩
      intro kv hkv
      rcases mem_assign hkv with rfl | hkv
      · exact lt_of_le_of_ne (not_lt.mp hlt) (Ne.symm heq)
      · exact hm kv hkv

theorem storable_assign (hvalue : Storable value) (hkvs : Storable (.obj kvs)) :
    Storable (.obj (assign key value kvs)) := by
  cases hkvs with
  | obj _ hsorted hall =>
    refine .obj _ (sorted_assign hsorted) ?_
    intro kv hkv
    rcases mem_assign hkv with rfl | hkv
    · exact hvalue
    · exact hall kv hkv

theorem held_assign (hvalue : Held value) (hkvs : Held (.obj kvs)) :
    Held (.obj (assign key value kvs)) := by
  cases hkvs with
  | obj _ hsorted hall =>
    refine .obj _ (sorted_assign hsorted) ?_
    intro kv hkv
    rcases mem_assign hkv with rfl | hkv
    · exact hvalue
    · exact hall kv hkv

theorem storable_empty : Storable (.obj []) := .obj [] .nil nofun

end Assign

section RoundTrip

variable {yaml}

/-- What the reader makes of a bare string that would not change its type. -/
theorem scalarToJson_of_keeps {tag s : String} (h : plainWouldChangeType yaml s = false) :
    scalarToJson yaml.toYamlCpp tag s = .str s := by
  simp only [plainWouldChangeType, Bool.or_eq_false_iff, Option.isSome_eq_false_iff,
    Option.isNone_iff_eq_none] at h
  obtain ⟨⟨⟨⟨⟨hempty, htilde⟩, hnull⟩, hbool⟩, hint⟩, hdouble⟩ := h
  have hspelled : ¬ (s.isEmpty ∨ s = "~" ∨ s = "null") := by
    rintro (he | he | he)
    · rw [he] at hempty
      cases hempty
    · exact absurd he (beq_eq_false_iff_ne.mp htilde)
    · exact absurd he (beq_eq_false_iff_ne.mp hnull)
  simp only [scalarToJson, hbool, hint, hdouble, if_neg hspelled, ite_self]

/-- **The two predicates mirror each other.**  A string goes out so that it comes back as that
string, quoted or bare. -/
theorem nodeToJson_str (yaml : YamlPair) (s : String) :
    nodeToJson yaml.toYamlCpp ((emit yaml (.str s)).node yaml) = .ok (.str s) := by
  simp only [emit]
  split
  · next hchanges => simp [Emitted.node, nodeToJson, scalarToJson]
  · next hkeeps =>
    rw [Emitted.node, strNode, nodeToJson, scalarToJson_of_keeps (by simpa using hkeeps)]

/-- Past every key there is, a member goes to the end. -/
theorem assign_past {key : String} {value : Json} {kvs : List (String × Json)}
    (h : ∀ kv ∈ kvs, kv.1 < key) : assign key value kvs = kvs ++ [(key, value)] := by
  induction kvs with
  | nil => rfl
  | cons kv kvs ih =>
    have hkv := h kv List.mem_cons_self
    rw [assign, if_neg (lt_asymm hkv), if_neg (ne_of_gt hkv),
      ih fun kv' hmem => h kv' (List.mem_cons_of_mem _ hmem)]
    rfl

/-- The elements of a list, each of which comes back. -/
theorem sequenceToJson_emitElems {es : List Json} (h : ∀ e ∈ es,
    nodeToJson yaml.toYamlCpp ((emit yaml e).node yaml) = .ok (reread yaml e)) :
    sequenceToJson yaml.toYamlCpp (nodeElems yaml (emitElems yaml es)) =
      .ok (rereadElems yaml es) := by
  induction es with
  | nil => rfl
  | cons e es ih =>
    have hrest := ih fun e he => h e (List.mem_cons_of_mem _ he)
    rw [emitElems, nodeElems, sequenceToJson, h e List.mem_cons_self, hrest, rereadElems]
    rfl

theorem map_eq_self_iff {α : Type} {f : α → α} {l : List α} :
    l.map f = l ↔ ∀ x ∈ l, f x = x :=
  ⟨fun h => List.map_inj_left.mp (h.trans (List.map_id l).symm),
    fun h => (List.map_congr_left h).trans (List.map_id' l)⟩

theorem rereadElems_eq_map (es : List Json) : rereadElems yaml es = es.map (reread yaml) := by
  induction es with
  | nil => rfl
  | cons e es ih => rw [rereadElems, ih, List.map_cons]

theorem rereadMembers_eq_map (kvs : List (String × Json)) :
    rereadMembers yaml kvs = kvs.map fun kv => (kv.1, reread yaml kv.2) := by
  induction kvs with
  | nil => rfl
  | cons kv kvs ih => rw [rereadMembers, ih, List.map_cons]

/-- The members of an object, in key order and each of which comes back, go after the members
`obj` has, all of them smaller. -/
theorem mapToJson_emitMembers (hkey : ∀ tag s, yaml.asString (.scalar tag s) = .ok s)
    {kvs : List (String × Json)} (h : ∀ kv ∈ kvs,
      nodeToJson yaml.toYamlCpp ((emit yaml kv.2).node yaml) = .ok (reread yaml kv.2)) :
    ∀ obj : List (String × Json),
      (obj ++ rereadMembers yaml kvs).Pairwise (fun a b => a.1 < b.1) →
      mapToJson yaml.toYamlCpp (nodeMembers yaml (emitMembers yaml kvs)) obj =
        .ok (obj ++ rereadMembers yaml kvs) := by
  induction kvs with
  | nil =>
    intro obj _
    rw [emitMembers, nodeMembers, mapToJson, rereadMembers, List.append_nil]
  | cons kv kvs ih =>
    intro obj hsorted
    obtain ⟨k, v⟩ := kv
    have hback := h (k, v) List.mem_cons_self
    rw [rereadMembers] at hsorted ⊢
    have hpast : assign k (reread yaml v) obj = obj ++ [(k, reread yaml v)] := by
      refine assign_past ?_
      intro kv hkv
      exact (List.pairwise_append.mp hsorted).2.2 kv hkv (k, reread yaml v) List.mem_cons_self
    have hrest := ih (fun kv hkv => h kv (List.mem_cons_of_mem _ hkv))
      (obj ++ [(k, reread yaml v)]) (by simpa using hsorted)
    rw [emitMembers, nodeMembers, mapToJson, hback, strNode, hkey]
    show mapToJson yaml.toYamlCpp _ (assign k (reread yaml v) obj) = _
    rw [hpast, hrest, List.append_assoc]
    rfl

/-- **Every value comes back**, whatever is nested in it. -/
theorem nodeToJson_emit (hkey : ∀ tag s, yaml.asString (.scalar tag s) = .ok s) {v : Json}
    (hv : Held v) :
    nodeToJson yaml.toYamlCpp ((emit yaml v).node yaml) = .ok (reread yaml v) := by
  induction hv with
  | null => rfl
  | bool b => rfl
  | int i => rfl
  | float m e => rfl
  | str s => exact nodeToJson_str yaml s
  | arr es _ ih =>
    rw [emit, Emitted.node, nodeToJson, sequenceToJson_emitElems ih, reread]
    rfl
  | obj kvs hsorted _ ih =>
    have hmembers : (rereadMembers yaml kvs).Pairwise fun a b => a.1 < b.1 := by
      rw [rereadMembers_eq_map]
      exact hsorted.map _ fun _ _ h => h
    rw [emit, Emitted.node, nodeToJson, mapToJson_emitMembers hkey ih [] hmembers, reread]
    rfl

/-- A document that can be stored is read as it was. -/
theorem reread_of_storable (hread : ReadsScalars yaml) {v : Json} (hv : Storable v) :
    reread yaml v = v := by
  have hplain : ¬ "?" = "!" := by decide
  induction hv with
  | null => rfl
  | bool b => simp only [reread, scalarToJson, hread.bool b, if_neg hplain]
  | int i hmin hmax =>
    simp only [reread, scalarToJson, hread.notBool i, hread.int i hmin hmax, if_neg hplain]
  | str s => rfl
  | arr es _ ih => rw [reread, rereadElems_eq_map, map_eq_self_iff.mpr ih]
  | obj kvs hsorted _ ih =>
    have hmembers : ∀ kv ∈ kvs, (kv.1, reread yaml kv.2) = kv :=
      fun kv hkv => Prod.ext rfl (ih kv hkv)
    rw [reread, rereadMembers_eq_map, map_eq_self_iff.mpr hmembers]

theorem load_dump {v : Json} (hcarries : Carries yaml (emit yaml v)) :
    yaml.load (dump yaml v) = .ok ((emit yaml v).node yaml) := by
  unfold dump withNewline
  split
  · exact hcarries.2
  · exact hcarries.1

/-- What a dumped document is parsed as. -/
theorem parse_dump (hkey : ∀ tag s, yaml.asString (.scalar tag s) = .ok s)
    {kvs : List (String × Json)} (hdoc : Held (.obj kvs))
    (hcarries : Carries yaml (emit yaml (.obj kvs))) :
    parse yaml.toYamlCpp (dump yaml (.obj kvs)) = .ok (.obj (rereadMembers yaml kvs)) := by
  have hback := nodeToJson_emit hkey hdoc
  unfold parse
  rw [load_dump hcarries]
  rw [emit, Emitted.node] at hback ⊢
  exact hback

/-- A document that can be stored is the same document once it is dumped and parsed. -/
theorem parse_dump_of_storable (hread : ReadsScalars yaml) {kvs : List (String × Json)}
    (hdoc : Storable (.obj kvs)) (hcarries : Carries yaml (emit yaml (.obj kvs))) :
    parse yaml.toYamlCpp (dump yaml (.obj kvs)) = .ok (.obj kvs) :=
  (parse_dump hread.key (held_of_storable hdoc) hcarries).trans
    (congrArg Except.ok (reread_of_storable hread hdoc))

/-- **The round trip.**  A document comes back from its YAML as it was, and a string, at whatever
depth it stands and whatever it looks like, comes back as that string: this half asks nothing of
the conversions, they only have to be the same in both directions. -/
theorem yaml_round_trip (hread : ReadsScalars yaml) {kvs : List (String × Json)}
    (hdoc : Storable (.obj kvs)) (hcarries : Carries yaml (emit yaml (.obj kvs))) :
    parse yaml.toYamlCpp (dump yaml (.obj kvs)) = .ok (.obj kvs) ∧
      ∀ s, nodeToJson yaml.toYamlCpp ((emit yaml (.str s)).node yaml) = .ok (.str s) :=
  ⟨parse_dump_of_storable hread hdoc hcarries, nodeToJson_str yaml⟩

end RoundTrip

/-! ## 4. What the parser hands over -/

/-- An integer that is recognised has 64 bits. -/
def ReadsInt64 (yaml : YamlCpp) : Prop :=
  ∀ s i, yaml.toInt64 s = some i → -2 ^ 63 ≤ i ∧ i < 2 ^ 63

section Held

variable {yaml : YamlCpp}

theorem held_scalarToJson (hint : ReadsInt64 yaml) (tag value : String) :
    Held (scalarToJson yaml tag value) := by
  unfold scalarToJson
  split
  · exact .str _
  · split
    · exact .bool _
    · next hi =>
      obtain ⟨hmin, hmax⟩ := hint _ _ hi
      exact .int _ hmin hmax
    · exact .float _ _
    · split
      · exact .null
      · exact .str _

mutual

theorem held_nodeToJson (hint : ReadsInt64 yaml) : ∀ {node : Node} {v : Json},
    nodeToJson yaml node = .ok v → Held v
  | .null, _, h => by
    cases h
    exact .null
  | .scalar tag value, _, h => by
    cases h
    exact held_scalarToJson hint tag value
  | .sequence children, v, h => by
    rw [nodeToJson] at h
    cases hes : sequenceToJson yaml children with
    | error e =>
      rw [hes] at h
      cases h
    | ok es =>
      rw [hes] at h
      cases h
      exact .arr es (held_sequenceToJson hint hes)
  | .map members, v, h => by
    rw [nodeToJson] at h
    cases hkvs : mapToJson yaml members [] with
    | error e =>
      rw [hkvs] at h
      cases h
    | ok kvs =>
      rw [hkvs] at h
      cases h
      exact held_mapToJson hint (.obj [] .nil nofun) hkvs

theorem held_sequenceToJson (hint : ReadsInt64 yaml) : ∀ {children : List Node} {es : List Json},
    sequenceToJson yaml children = .ok es → ∀ e ∈ es, Held e
  | [], _, h => by
    cases h
    exact nofun
  | child :: children, es, h => by
    rw [sequenceToJson] at h
    cases he : nodeToJson yaml child with
    | error e =>
      rw [he] at h
      cases h
    | ok e =>
      cases hes : sequenceToJson yaml children with
      | error e' =>
        rw [he, hes] at h
        cases h
      | ok es' =>
        rw [he, hes] at h
        cases h
        intro e' he'
        rcases List.mem_cons.mp he' with rfl | he'
        · exact held_nodeToJson hint he
        · exact held_sequenceToJson hint hes e' he'

theorem held_mapToJson (hint : ReadsInt64 yaml) : ∀ {members : List (Node × Node)}
    {obj kvs : List (String × Json)}, Held (.obj obj) → mapToJson yaml members obj = .ok kvs →
      Held (.obj kvs)
  | [], obj, _, hobj, h => by
    cases h
    exact hobj
  | (k, v) :: members, obj, kvs, hobj, h => by
    rw [mapToJson] at h
    cases hv : nodeToJson yaml v with
    | error e =>
      rw [hv] at h
      cases h
    | ok value =>
      cases hk : yaml.asString k with
      | error e =>
        rw [hv, hk] at h
        cases h
      | ok key =>
        rw [hv, hk] at h
        exact held_mapToJson hint (held_assign (held_nodeToJson hint hv) hobj) h

end

/-- A document that is parsed has its members in order. -/
theorem held_of_parse (hint : ReadsInt64 yaml) {text : String} {v : Json}
    (h : parse yaml text = .ok v) : Held v := by
  unfold parse at h
  cases hload : yaml.load text with
  | error e =>
    rw [hload] at h
    cases h
  | ok root =>
    rw [hload] at h
    cases root with
    | null =>
      cases h
      exact .obj [] .nil nofun
    | _ => exact held_nodeToJson hint h

end Held

/-! ## 5. A pair that knows one document -/

/-- Decimal digits, with a sign or without. -/
def decimal : List Char → Option Int
  | [] => none
  | c :: cs =>
    if c = '-' then if cs.all Char.isDigit then some (-(Nat.ofDigitChars 10 cs 0 : Int)) else none
    else if (c :: cs).all Char.isDigit then some (Nat.ofDigitChars 10 (c :: cs) 0) else none

/-- A parser and an emitter for one document: `text` is what is written, and is read as `root`. -/
def knowing (text : String) (root : Node) : YamlPair where
  load t := if t = text ∨ t = text.push '\n' then .ok root else .error "not known"
  asString
    | .scalar _ value => .ok value
    | _ => .error "bad conversion"
  toBool
    | "true" => some true
    | "false" => some false
    | _ => none
  toInt64 s := (decimal s.toList).filter fun i => decide (-2 ^ 63 ≤ i ∧ i < 2 ^ 63)
  toDouble
    | "1e3" => some (1000, 0)
    | _ => none
  write _ := text
  isPlain s := !s.isEmpty && s != "~" && s != "null" && !s.contains '\n'
  doubleText _ _ := "1e3"

/-- The pair that writes the document as `text`. -/
def writing (text : String) (v : Json) : YamlPair :=
  knowing text ((emit (knowing text .null) v).node (knowing text .null))

section Knowing

variable {text : String} {root : Node}

theorem decimal_toDigits (n : Nat) : decimal (Nat.toDigits 10 n) = some (n : Int) := by
  have hdigits : (Nat.toDigits 10 n).all Char.isDigit = true :=
    List.all_eq_true.mpr fun c hc => Nat.isDigit_of_mem_toDigits (by decide) (by decide) hc
  cases hcs : Nat.toDigits 10 n with
  | nil => exact absurd hcs Nat.toDigits_ne_nil
  | cons c cs =>
    have hvalue := @Nat.ofDigitChars_ten_toDigits n
    rw [hcs] at hdigits hvalue
    have hsign : c ≠ '-' := by
      rintro rfl
      simp at hdigits
    rw [decimal, if_neg hsign, if_pos hdigits, hvalue]

theorem decimal_toString (i : Int) : decimal (toString i).toList = some i := by
  cases i with
  | ofNat n =>
    show decimal (Nat.repr n).toList = _
    rw [Nat.toList_repr]
    exact decimal_toDigits n
  | negSucc n =>
    show decimal ("-" ++ Nat.repr (n + 1)).toList = _
    have hdigits : (Nat.toDigits 10 (n + 1)).all Char.isDigit = true :=
      List.all_eq_true.mpr fun c hc => Nat.isDigit_of_mem_toDigits (by decide) (by decide) hc
    rw [String.toList_append, Nat.toList_repr]
    show decimal ('-' :: Nat.toDigits 10 (n + 1)) = _
    rw [decimal, if_pos rfl, if_pos hdigits, Nat.ofDigitChars_ten_toDigits]
    rfl

theorem readsScalars_knowing : ReadsScalars (knowing text root) where
  key _ _ := rfl
  bool b := by cases b <;> rfl
  notBool i := by
    have hdecimal := decimal_toString i
    -- what spells a bool is no decimal
    show (match toString i with
      | "true" => some true
      | "false" => some false
      | _ => none) = none
    split
    · next h =>
      rw [h] at hdecimal
      cases hdecimal
    · next h =>
      rw [h] at hdecimal
      cases hdecimal
    · rfl
  int i hmin hmax := by
    show (decimal (toString i).toList).filter _ = some i
    rw [decimal_toString, Option.filter_some, if_pos (decide_eq_true ⟨hmin, hmax⟩)]

theorem readsInt64_knowing : ReadsInt64 (knowing text root).toYamlCpp := by
  intro s i h
  exact of_decide_eq_true (Option.filter_eq_some_iff.mp h).2

variable {yaml : YamlPair} {load : String → Except String Node} {write : Emitted → String}

mutual

/-- What is emitted does not depend on the documents known. -/
theorem emit_relearn : ∀ v : Json,
    emit { yaml with load := load, write := write } v = emit yaml v
  | .obj kvs => by rw [emit, emit, emitMembers_relearn kvs]
  | .arr es => by rw [emit, emit, emitElems_relearn es]
  | .str s => by
    rw [emit, emit]
    rfl
  | .bool b | .int i | .float m e | .null => by rw [emit, emit]

theorem emitElems_relearn : ∀ es : List Json,
    emitElems { yaml with load := load, write := write } es = emitElems yaml es
  | [] => by rw [emitElems, emitElems]
  | e :: es => by rw [emitElems, emitElems, emit_relearn e, emitElems_relearn es]

theorem emitMembers_relearn : ∀ kvs : List (String × Json),
    emitMembers { yaml with load := load, write := write } kvs = emitMembers yaml kvs
  | [] => by rw [emitMembers, emitMembers]
  | (k, v) :: kvs => by rw [emitMembers, emitMembers, emit_relearn v, emitMembers_relearn kvs]

end

mutual

/-- Neither does the document it stands for. -/
theorem node_relearn : ∀ v : Emitted,
    v.node { yaml with load := load, write := write } = v.node yaml
  | .map members => by rw [Emitted.node, Emitted.node, nodeMembers_relearn members]
  | .seq elems => by rw [Emitted.node, Emitted.node, nodeElems_relearn elems]
  | .str s => by
    rw [Emitted.node, Emitted.node]
    rfl
  | .doubleQuoted s | .bool b | .int i | .double m e | .null => by
    rw [Emitted.node, Emitted.node]

theorem nodeElems_relearn : ∀ es : List Emitted,
    nodeElems { yaml with load := load, write := write } es = nodeElems yaml es
  | [] => by rw [nodeElems, nodeElems]
  | e :: es => by rw [nodeElems, nodeElems, node_relearn e, nodeElems_relearn es]

theorem nodeMembers_relearn : ∀ members : List (String × Emitted),
    nodeMembers { yaml with load := load, write := write } members = nodeMembers yaml members
  | [] => by rw [nodeMembers, nodeMembers]
  | (k, v) :: members => by
    rw [nodeMembers, nodeMembers, node_relearn v, nodeMembers_relearn members]
    rfl

end

/-- A text that is loaded as what a document emits is parsed as that document. -/
theorem parse_of_load (hread : ReadsScalars yaml) {text : String} {kvs : List (String × Json)}
    (hdoc : Storable (.obj kvs))
    (hload : yaml.load text = .ok ((emit yaml (.obj kvs)).node yaml)) :
    parse yaml.toYamlCpp text = .ok (.obj kvs) := by
  have hback := nodeToJson_emit hread.key (held_of_storable hdoc)
  rw [reread_of_storable hread hdoc] at hback
  unfold parse
  rw [hload]
  rw [emit, Emitted.node] at hback ⊢
  exact hback

/-- The pair carries the document it knows. -/
theorem carries_writing (text : String) (v : Json) :
    Carries (writing text v) (emit (writing text v) v) := by
  have hroot : (emit (writing text v) v).node (writing text v) =
      (emit (knowing text .null) v).node (knowing text .null) := by
    have hemit : emit (writing text v) v = emit (knowing text .null) v :=
      @emit_relearn (knowing text .null) (writing text v).load (writing text v).write v
    rw [hemit]
    exact @node_relearn (knowing text .null) (writing text v).load (writing text v).write _
  unfold Carries
  rw [hroot]
  exact ⟨if_pos (Or.inl rfl), if_pos (Or.inr rfl)⟩

/-- What it wrote it reads. -/
theorem parse_writing (text : String) {kvs : List (String × Json)} (hdoc : Storable (.obj kvs)) :
    parse (writing text (.obj kvs)).toYamlCpp text = .ok (.obj kvs) :=
  parse_of_load readsScalars_knowing hdoc (carries_writing text (.obj kvs)).1

end Knowing

/-- The pair that reads several texts, each as its document, and writes the first. -/
def knowingAll (texts : List (String × List (String × Json))) : YamlPair :=
  { knowing "" .null with
    load := fun text =>
      match texts.find? fun p => decide (text = p.1 ∨ text = p.1.push '\n') with
      | some p => .ok ((emit (knowing "" .null) (.obj p.2)).node (knowing "" .null))
      | none => .error "not known"
    write := fun _ => (texts.head?.map Prod.fst).getD "" }

section KnowingAll

variable {texts : List (String × List (String × Json))} {p : String × List (String × Json)}

theorem readsScalars_knowingAll : ReadsScalars (knowingAll texts) := by
  have hscalars := @readsScalars_knowing "" .null
  exact ⟨hscalars.key, hscalars.bool, hscalars.notBool, hscalars.int⟩

/-- What is known is loaded as what it emits. -/
theorem load_knowingAll {text : String}
    (h : texts.find? (fun p => decide (text = p.1 ∨ text = p.1.push '\n')) = some p) :
    (knowingAll texts).load text =
      .ok ((emit (knowingAll texts) (.obj p.2)).node (knowingAll texts)) := by
  have hemit : emit (knowingAll texts) (.obj p.2) = emit (knowing "" .null) (.obj p.2) :=
    @emit_relearn (knowing "" .null) (knowingAll texts).load (knowingAll texts).write _
  have hnode := @node_relearn (knowing "" .null) (knowingAll texts).load (knowingAll texts).write
    (emit (knowing "" .null) (.obj p.2))
  rw [hemit, show (emit (knowing "" .null) (.obj p.2)).node (knowingAll texts) = _ from hnode]
  simp only [knowingAll, h]

theorem parse_knowingAll {text : String} (hdoc : Storable (.obj p.2))
    (h : texts.find? (fun p => decide (text = p.1 ∨ text = p.1.push '\n')) = some p) :
    parse (knowingAll texts).toYamlCpp text = .ok (.obj p.2) :=
  parse_of_load readsScalars_knowingAll hdoc (load_knowingAll h)

/-- The first document is carried. -/
theorem carries_knowingAll (p : String × List (String × Json))
    (texts : List (String × List (String × Json))) :
    Carries (knowingAll (p :: texts)) (emit (knowingAll (p :: texts)) (.obj p.2)) :=
  ⟨load_knowingAll (List.find?_cons_of_pos (decide_eq_true (Or.inl rfl))),
    load_knowingAll (List.find?_cons_of_pos (decide_eq_true (Or.inr rfl)))⟩

end KnowingAll

/-- A document with a string of every kind that a bare scalar would turn into something else. -/
def lookalikes : List (String × Json) := [("count", .int (-7)),
  ("entries", .arr [.null, .bool true, .str "true", .obj []]),
  ("values", .obj [("a", .str "6001"), ("b", .str ""), ("c", .str "two words"), ("d", .str "~"),
    ("e", .str "1e3")])]

/-- The document on disk. -/
def lookalikesText : String :=
  "count: -7\nentries:\n  - ~\n  - true\n  - \"true\"\n  - \x7b\x7d\nvalues:\n" ++
  "  a: \"6001\"\n  b: \"\"\n  c: two words\n  d: \"~\"\n  e: \"1e3\""

/-- It comes back as it was. -/
theorem lookalikes_come_back :
    parse (writing lookalikesText (.obj lookalikes)).toYamlCpp
        (dump (writing lookalikesText (.obj lookalikes)) (.obj lookalikes)) =
      .ok (.obj lookalikes) := by
  refine (yaml_round_trip readsScalars_knowing ?_ (carries_writing _ _)).1
  have hentries : Storable (.arr [.null, .bool true, .str "true", .obj []]) := by
    refine .arr _ ?_
    simp only [List.forall_mem_cons]
    exact ⟨.null, .bool _, .str _, .obj [] .nil nofun, nofun⟩
  have hvalues : Storable (.obj [("a", .str "6001"), ("b", .str ""), ("c", .str "two words"),
      ("d", .str "~"), ("e", .str "1e3")]) := by
    refine .obj _ (by decide +kernel) ?_
    simp only [List.forall_mem_cons]
    exact ⟨.str _, .str _, .str _, .str _, .str _, nofun⟩
  refine .obj _ (by decide +kernel) ?_
  simp only [lookalikes, List.forall_mem_cons]
  exact ⟨.int _ (by decide) (by decide), hentries, hvalues, nofun⟩

end Logosctl.YamlJson
