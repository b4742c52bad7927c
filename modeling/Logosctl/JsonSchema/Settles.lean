/-
# Reads that are settled by what they look at

Errors are collected on the side while reading goes on with defaults, so what a read is about shows
only at the end: either nothing was noted, and what is handed over is what the document says, or
something was.  `Settles x P Q` is both halves of that for one read: with `P` it notes nothing and
hands over a `Q`, and without `P` it notes something.  A sequence of settled reads is settled by
the conjunction (`settles_bind`), provided that no later read takes a message back (`Keeps`).
-/
import Logosctl.JsonSchema

namespace Logosctl.JsonSchema

/-! ## 1. Settled reads -/

/-- From a clean start, `x` notes nothing and hands over a `Q` if `P`, and notes something if not;
and it takes nothing back. -/
structure Settles {α : Type} (x : Checked α) (P : Prop) (Q : α → Prop) : Prop where
  keeps : Keeps x
  accepts : P → ∃ a, Reads x a ∧ Q a
  rejects : ¬ P → (x.run {}).2.ok = false

section Settles

variable {α β : Type} {x : Checked α} {f : α → Checked β} {P P' : Prop} {Q : α → Prop}
  {Q' : β → Prop}

theorem settles_pure {a : α} (hP : P) (hQ : Q a) : Settles (pure a : Checked α) P Q :=
  ⟨keeps_pure a, fun _ => ⟨a, reads_pure a, hQ⟩, fun hno => absurd hP hno⟩

/-- What is noted stays noted. -/
theorem not_ok_of_keeps {errs : Errors} (hx : Keeps x) (h : errs.ok = false) :
    (x.run errs).2.ok = false := by
  cases hok : (x.run errs).2.ok with
  | false => rfl
  | true =>
    rw [hx errs hok] at h
    cases h

/-- **Two settled reads** are settled by what settles each of them. -/
theorem settles_bind (hx : Settles x P Q) (hkeeps : ∀ a, Keeps (f a))
    (hf : P → ∀ a, Q a → Settles (f a) P' Q') : Settles (x >>= f) (P ∧ P') Q' := by
  refine ⟨keeps_bind hx.keeps hkeeps, ?_, fun hno => ?_⟩
  · rintro ⟨hP, hP'⟩
    obtain ⟨a, ha, hQ⟩ := hx.accepts hP
    obtain ⟨b, hb, hQ'⟩ := (hf hP a hQ).accepts hP'
    exact ⟨b, reads_bind ha hb, hQ'⟩
  · by_cases hP : P
    · obtain ⟨a, ha, hQ⟩ := hx.accepts hP
      rw [run_bind_of_reads ha]
      exact (hf hP a hQ).rejects fun hP' => hno ⟨hP, hP'⟩
    · rw [run_bind]
      exact not_ok_of_keeps (hkeeps _) (hx.rejects hP)

/-- The same after a read of one value.  What follows a read of one member is mostly more of
them. -/
theorem settles_read {a₀ : α} (hx : Settles x P (· = a₀)) (hf : P → Settles (f a₀) P' Q')
    (hkeeps : ∀ a, Keeps (f a) := by
      intro _
      repeat' with_reducible first
        | exact keeps_pure _
        | exact keeps_str _
        | exact keeps_boolean _
        | exact keeps_integer _ _ _
        | exact keeps_note _
        | exact keeps_allOk
        | assumption
        | refine keeps_ite ?_ ?_
        | refine keeps_bind ?_ fun _ => ?_) : Settles (x >>= f) (P ∧ P') Q' := by
  refine settles_bind hx hkeeps ?_
  rintro hP a rfl
  exact hf hP

/-- The same read, told in other words. -/
theorem Settles.congr (hx : Settles x P Q) {R : α → Prop} (hP : P' ↔ P)
    (hQ : ∀ a, Q a → R a) : Settles x P' R := by
  refine ⟨hx.keeps, fun h => ?_, fun h => hx.rejects fun hp => h (hP.mpr hp)⟩
  obtain ⟨a, ha, hq⟩ := hx.accepts (hP.mp h)
  exact ⟨a, ha, hQ a hq⟩

/-- The same read, told in other words for the document only. -/
theorem Settles.of_iff (hx : Settles x P Q) (hP : P' ↔ P) : Settles x P' Q :=
  hx.congr hP fun _ h => h

/-- What follows a settled read may have nothing left to decide. -/
theorem settles_then (hx : Settles x P Q) (hkeeps : ∀ a, Keeps (f a))
    (hf : P → ∀ a, Q a → Settles (f a) True Q') : Settles (x >>= f) P Q' :=
  (settles_bind hx hkeeps hf).of_iff (and_iff_left trivial).symm

/-- A read that always notes something. -/
theorem settles_note {message : String} {a : α} (hno : ¬ P) (h : message ≠ "") :
    Settles (do note message; return a : Checked α) P Q := by
  refine ⟨keeps_bind (keeps_note _) fun _ => keeps_pure _, fun hP => absurd hP hno, fun _ => ?_⟩
  show (Errors.note message {}).ok = false
  rw [show Errors.note message {} = ⟨message⟩ from rfl]
  simpa [Errors.ok] using h

theorem settles_mismatch {key expected : String} {got : Json} {a : α} (hno : ¬ P) :
    Settles (do mismatch key expected got; return a : Checked α) P Q :=
  settles_note hno (by simp)

/-- With nothing noted, the last question has one answer. -/
theorem settles_allOk {a b : α} (hP : P) (hQ : Q a) :
    Settles (do return if ← allOk then a else b : Checked α) P Q :=
  ⟨keeps_bind keeps_allOk fun _ => keeps_pure _, fun _ => ⟨a, rfl, hQ⟩, fun hno => absurd hP hno⟩

end Settles

/-! ## 2. One member -/

/-- The member is absent, null, or a `p`. -/
def Optional (p : Json → Prop) (obj : Json) (key : String) : Prop :=
  ∀ v, obj.find? key = some v → v = .null ∨ p v

def IsText : Json → String → Prop := Optional fun v => v.isString = true

def IsFlag : Json → String → Prop := Optional fun v => v.isBoolean = true

/-- A whole number in the range. -/
def IsNumberIn (min max : Int) : Json → String → Prop :=
  Optional fun v => ∃ i, v = .int i ∧ min ≤ i ∧ i ≤ max

def IsTexts : Json → String → Prop :=
  Optional fun v => ∃ ss : List String, v = .arr (ss.map Json.str)

def IsMapping : Json → String → Prop := Optional fun v => v.isObject = true

def IsSequence : Json → String → Prop := Optional fun v => v.isArray = true

/-- The strings of the list under a key. -/
def textsOf (obj : Json) (key : String) : List String :=
  match obj.find? key with
  | some (.arr es) => es.filterMap fun e =>
    match e with
    | .str s => some s
    | _ => none
  | _ => []

/-- The members of the mapping under a key, if there is one. -/
def mappingOf (obj : Json) (key : String) : Option (List (String × Json)) :=
  match obj.find? key with
  | some (.obj kvs) => some kvs
  | _ => none

/-- The elements of the list under a key, if there is one. -/
def elementsOf (obj : Json) (key : String) : Option (List Json) :=
  match obj.find? key with
  | some (.arr es) => some es
  | _ => none

/-- The mapping under a key; an empty one when there is none. -/
def blockOf (obj : Json) (key : String) : Json := .obj ((mappingOf obj key).getD [])

section Member

variable {r : Reader} {key : String}

theorem optional_of_none {p : Json → Prop} {obj : Json} (h : obj.find? key = none) :
    Optional p obj key := by
  intro v hv
  rw [h] at hv
  cases hv

theorem optional_iff_of_some {p : Json → Prop} {obj v : Json} (h : obj.find? key = some v) :
    Optional p obj key ↔ v = .null ∨ p v := by
  unfold Optional
  rw [h]
  simp

/-- A read of one member, by what it does with a value that is there. -/
theorem settles_member {α : Type} {x : Checked α} {p : Json → Prop} {Q : α → Prop}
    (habsent : r.obj.find? key = none ∨ r.obj.find? key = some .null → Settles x True Q)
    (hsome : ∀ v, r.obj.find? key = some v → v ≠ .null → Settles x (p v) Q) :
    Settles x (Optional p r.obj key) Q := by
  cases hfind : r.obj.find? key with
  | none =>
    exact (habsent (Or.inl hfind)).of_iff (iff_true_intro (optional_of_none hfind))
  | some v =>
    rw [optional_iff_of_some hfind]
    by_cases hv : v = .null
    · subst hv
      exact (habsent (Or.inr hfind)).of_iff (iff_true_intro (Or.inl rfl))
    · exact (hsome v hfind hv).of_iff (or_iff_right hv)

/-- A number that conforms is in the range, whether or not it is there. -/
theorem numberOf_mem {obj : Json} {min max : Int} (h : IsNumberIn min max obj key) (dflt : Int)
    (hmin : min ≤ dflt) (hmax : dflt ≤ max) :
    min ≤ obj.numberOf key dflt ∧ obj.numberOf key dflt ≤ max := by
  unfold Json.numberOf
  split
  · next i hfind =>
    obtain hnull | ⟨i', heq, hi⟩ := h _ hfind
    · cases hnull
    · cases heq
      exact hi
  · exact ⟨hmin, hmax⟩

theorem isText_of_textOf_ne {obj : Json} (h : obj.textOf key ≠ "") : IsText obj key := by
  intro v hv
  unfold Json.textOf at h
  rw [hv] at h
  cases v with
  | str s => exact Or.inr rfl
  | _ => exact absurd rfl h

theorem settles_str (dflt : String) :
    Settles (r.str key dflt) (IsText r.obj key) (· = r.obj.textOf key dflt) := by
  refine settles_member ?_ ?_
  · rintro (h | h)
    all_goals
      simp only [Reader.str, Reader.present, h, Json.textOf]
      exact settles_pure trivial rfl
  · intro v h hv
    simp only [Reader.str, Reader.present, h, Json.textOf]
    cases v with
    | null => exact absurd rfl hv
    | str s => exact settles_pure rfl rfl
    | _ => exact settles_mismatch Bool.false_ne_true

theorem settles_boolean (dflt : Bool) :
    Settles (r.boolean key dflt) (IsFlag r.obj key) (· = r.obj.flagOf key dflt) := by
  refine settles_member ?_ ?_
  · rintro (h | h)
    all_goals
      simp only [Reader.boolean, Reader.present, h, Json.flagOf]
      exact settles_pure trivial rfl
  · intro v h hv
    simp only [Reader.boolean, Reader.present, h, Json.flagOf]
    cases v with
    | null => exact absurd rfl hv
    | bool b => exact settles_pure rfl rfl
    | _ => exact settles_mismatch Bool.false_ne_true

/-- A number past the signed range is out of every range. -/
theorem settles_integer {dflt min max : Int} (hmax : max ≤ Reader.int64Max) :
    Settles (r.integer key dflt min max) (IsNumberIn min max r.obj key)
      (· = r.obj.numberOf key dflt) := by
  refine settles_member ?_ ?_
  · rintro (h | h)
    all_goals
      simp only [Reader.integer, Reader.present, h, Json.numberOf]
      exact settles_pure trivial rfl
  · intro v h hv
    simp only [Reader.integer, Reader.present, h, Json.numberOf]
    cases v with
    | null => exact absurd rfl hv
    | int i =>
      dsimp only
      by_cases htooBig : Reader.int64Max < i
      · rw [if_pos (Or.inl htooBig)]
        refine settles_note ?_ (by simp)
        rintro ⟨j, ⟨⟩, -, hj⟩
        omega
      · rw [if_neg htooBig]
        by_cases hin : Reader.int64Max < i ∨ i < min ∨ max < i
        · rw [if_pos hin]
          refine settles_note ?_ (by simp)
          rintro ⟨j, ⟨⟩, hj₁, hj₂⟩
          omega
        · rw [if_neg hin]
          exact settles_pure ⟨i, rfl, by omega, by omega⟩ rfl
    | _ => exact settles_mismatch (by rintro ⟨i, ⟨⟩, -⟩)

theorem stringElems_cases (es : List Json) : ∀ i,
    (∃ ss : List String, es = ss.map Json.str ∧ Reader.stringElems i es = .ok ss) ∨
      ((¬ ∃ ss : List String, es = ss.map Json.str) ∧
        ∃ bad, Reader.stringElems i es = .error bad) := by
  induction es with
  | nil => exact fun i => Or.inl ⟨[], rfl, rfl⟩
  | cons e es ih =>
    intro i
    cases e with
    | str s =>
      rcases ih (i + 1) with ⟨ss, rfl, hss⟩ | ⟨hno, bad, hbad⟩
      · exact Or.inl ⟨s :: ss, rfl, by rw [Reader.stringElems, hss]; rfl⟩
      · refine Or.inr ⟨?_, bad, by rw [Reader.stringElems, hbad]; rfl⟩
        rintro ⟨_ | ⟨t, ss⟩, hss⟩
        · cases hss
        · exact hno ⟨ss, (List.cons.inj hss).2⟩
    | _ =>
      refine Or.inr ⟨?_, _, rfl⟩
      rintro ⟨_ | ⟨t, ss⟩, hss⟩
      · cases hss
      · cases (List.cons.inj hss).1

theorem settles_stringList :
    Settles (r.stringList key) (IsTexts r.obj key) (· = textsOf r.obj key) := by
  refine settles_member ?_ ?_
  · rintro (h | h)
    all_goals
      simp only [Reader.stringList, Reader.present, h, textsOf]
      exact settles_pure trivial rfl
  · intro v h hv
    simp only [Reader.stringList, Reader.present, h, textsOf]
    cases v with
    | null => exact absurd rfl hv
    | arr es =>
      dsimp only
      rcases stringElems_cases es 0 with ⟨ss, rfl, hss⟩ | ⟨hno, ⟨i, bad⟩, hbad⟩
      · rw [hss]
        refine settles_pure ⟨ss, rfl⟩ ?_
        rw [List.filterMap_map]
        exact List.filterMap_some.symm
      · rw [hbad]
        refine settles_mismatch ?_
        rintro ⟨ss, hss⟩
        exact hno ⟨ss, Json.arr.inj hss⟩
    | _ => exact settles_mismatch (by rintro ⟨ss, ⟨⟩⟩)

theorem settles_mapping {expected : String} :
    Settles (r.mapping key expected) (IsMapping r.obj key) (· = mappingOf r.obj key) := by
  refine settles_member ?_ ?_
  · rintro (h | h)
    all_goals
      simp only [Reader.mapping, Reader.present, h, mappingOf]
      exact settles_pure trivial rfl
  · intro v h hv
    simp only [Reader.mapping, Reader.present, h, mappingOf]
    cases v with
    | null => exact absurd rfl hv
    | obj kvs => exact settles_pure rfl rfl
    | _ => exact settles_mismatch Bool.false_ne_true

/-- What is read from a block, which is empty when it is not there. -/
theorem settles_block {β : Type} {expected : String} {f : Option (List (String × Json)) → Checked β}
    {P : Json → Prop} {Q : Json → β → Prop}
    (hf : ∀ o, Settles (f o) (P (.obj (o.getD []))) (Q (.obj (o.getD [])))) :
    Settles (r.mapping key expected >>= f) (IsMapping r.obj key ∧ P (blockOf r.obj key))
      (Q (blockOf r.obj key)) :=
  settles_read settles_mapping (fun _ => hf _) fun o => (hf o).keeps

theorem settles_list {expected : String} :
    Settles (r.list key expected) (IsSequence r.obj key) (· = elementsOf r.obj key) := by
  refine settles_member ?_ ?_
  · rintro (h | h)
    all_goals
      simp only [Reader.list, Reader.present, h, elementsOf]
      exact settles_pure trivial rfl
  · intro v h hv
    simp only [Reader.list, Reader.present, h, elementsOf]
    cases v with
    | null => exact absurd rfl hv
    | arr es => exact settles_pure rfl rfl
    | _ => exact settles_mismatch Bool.false_ne_true

end Member

end Logosctl.JsonSchema
