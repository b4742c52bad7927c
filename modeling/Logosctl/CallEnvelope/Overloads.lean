/-
# A null answer and a method with several signatures

A module may publish one name more than once, with parameters of different kinds.  The check of the
arguments is there for an answer of null, and it must be careful, since what it reports makes a
failure of a call that worked: only when no published signature of the name could take the arguments
is there anything to report.  The code looks at the first entry of the name and at no other.

`overloads_sound_iff` says when that is the same: when all entries of the name refute the arguments,
or none.
-/
import Logosctl.CallEnvelope

namespace Logosctl.CallEnvelope

/-! ## 1. What the report may be made of -/

/-- The envelope says that the arguments do not fit. -/
def ReportsMismatch (envelope : Json) : Prop :=
  ∃ error, envelope.find? "error" = some error ∧
    error.find? "code" = some (.str "argument_mismatch")

/-- The published entry could not take the arguments: its parameters are published, and when there
are as many as arguments, some position declares a type that refuses its argument. -/
def CannotTake (m : MethodInfo) (args : Json) : Prop :=
  m.paramsPublished = true ∧ ∀ vs, args = .arr vs → vs.length = m.paramTypes.length →
    ∃ i reason, RefusesAt m vs i reason

/-- What a call that was answered with null is reported as, by a module of these methods. -/
def nullEnvelope (module method : String) (args : Json) (failure : CallFailure)
    (methods : List MethodInfo) : Json :=
  ((callEnvelope module method .null args failure
    (some (pure methods) : MethodLister Unit)).run ()).1

/-- A mismatch is reported only when no entry of the name could take the arguments, and whether it
is does not depend on the order of the entries. -/
structure SoundUnderOverloading (module method : String) (args : Json) (failure : CallFailure)
    (methods : List MethodInfo) : Prop where
  conservative : ReportsMismatch (nullEnvelope module method args failure methods) →
    ∀ m ∈ methods, m.name = method → CannotTake m args
  orderless : ∀ methods' : List MethodInfo, methods'.Perm methods →
    (ReportsMismatch (nullEnvelope module method args failure methods') ↔
      ReportsMismatch (nullEnvelope module method args failure methods))

/-! ## 2. What it is made of -/

section Overloads

variable {module method : String} {args : Json} {failure : CallFailure}
  {methods : List MethodInfo} {m : MethodInfo}

theorem cannotTake_of_refutes {reason : String} (h : Refutes m args reason) :
    CannotTake m args := by
  obtain ⟨hpublished, vs, rfl, -, i, hrefuses, -⟩ := h
  refine ⟨hpublished, ?_⟩
  rintro vs' ⟨⟩ -
  exact ⟨i, reason, hrefuses⟩

theorem not_reportsMismatch_okEnvelope {ret : Json} :
    ¬ ReportsMismatch (okEnvelope module method ret) := by
  rintro ⟨error, herror, -⟩
  cases herror

theorem not_reportsMismatch_notFoundEnvelope {names : List String} :
    ¬ ReportsMismatch (notFoundEnvelope module method names) := by
  rintro ⟨error, herror, -⟩
  cases herror

theorem reportsMismatch_failedEnvelope {f : CallFailure} :
    ReportsMismatch (failedEnvelope module method f) ↔ f.code = "argument_mismatch" := by
  constructor
  · rintro ⟨error, herror, hcode⟩
    cases herror
    exact Json.str.inj (Option.some.inj hcode)
  · intro hcode
    refine ⟨_, rfl, ?_⟩
    rw [← hcode]
    rfl

/-- What fails when the answer is null. -/
theorem failed_null_iff {f : CallFailure} :
    Failed failure .null f ↔ failure.ok = false ∧ f = failure := by
  unfold Failed
  refine ⟨?_, Or.inl⟩
  rintro (h | ⟨-, hrefusal⟩)
  · exact h
  · exact absurd rfl hrefusal.ret_ne_null

/-- The first entry of the name decides. -/
theorem reportsMismatch_iff (hfailure : failure.code ≠ "argument_mismatch") :
    ReportsMismatch (nullEnvelope module method args failure methods) ↔
      failure.ok = true ∧ ∃ m, methods.find? (fun m => m.name == method) = some m ∧
        ∃ reason, Refutes m args reason := by
  unfold nullEnvelope
  cases hok : failure.ok with
  | false =>
    rw [run_of_failed (failed_null_iff.mpr ⟨hok, rfl⟩), reportsMismatch_failedEnvelope]
    simp [hfailure]
  | true =>
    have hno : ∀ f, ¬ Failed failure .null f := by
      intro f hf
      rw [failed_null_iff, hok] at hf
      exact absurd hf.1 (by decide)
    rw [run_of_null hno]
    show ReportsMismatch ((nullVerdict method args methods).envelope module method .null) ↔ _
    rw [nullVerdict]
    cases methods.find? fun m => m.name == method with
    | none =>
      cases methods.isEmpty with
      | true => simpa [Verdict.envelope] using not_reportsMismatch_okEnvelope
      | false => simpa [Verdict.envelope] using not_reportsMismatch_notFoundEnvelope
    | some found =>
      dsimp only
      cases hreason : argumentMismatch found args with
      | none =>
        have hnot : ∀ reason, ¬ Refutes found args reason := by
          intro reason hrefutes
          rw [argumentMismatch_eq_some_iff.mpr hrefutes] at hreason
          cases hreason
        simpa [hnot, Verdict.envelope] using not_reportsMismatch_okEnvelope
      | some reason =>
        refine ⟨fun _ => ⟨rfl, found, rfl, reason, argumentMismatch_eq_some_iff.mp hreason⟩, ?_⟩
        exact fun _ => reportsMismatch_failedEnvelope.mpr rfl

/-- Any entry of the name comes first in some order. -/
theorem exists_perm_first (hm : m ∈ methods) (hname : m.name = method) :
    ∃ methods' : List MethodInfo, methods'.Perm methods ∧
      methods'.find? (fun m => m.name == method) = some m :=
  ⟨m :: methods.erase m, (List.perm_cons_erase hm).symm, by simp [hname]⟩

/-- The entries of the name say the same of the arguments: all of them refute these, or none. -/
def Agree (method : String) (args : Json) (methods : List MethodInfo) : Prop :=
  ∀ m ∈ methods, ∀ m' ∈ methods, m.name = method → m'.name = method →
    (∃ reason, Refutes m args reason) → ∃ reason, Refutes m' args reason

/-- If the check is sound the entries agree: each of two comes first in some order, and the verdict
is the same in both. -/
theorem agree_of_sound (hfailure : failure.code ≠ "argument_mismatch")
    (hsound : SoundUnderOverloading module method args failure methods)
    (hok : failure.ok = true) : Agree method args methods := by
  intro m hm m' hm' hname hname' hrefutes
  obtain ⟨first, hfirst, hfind⟩ := exists_perm_first hm hname
  obtain ⟨first', hfirst', hfind'⟩ := exists_perm_first hm' hname'
  have hreports : ReportsMismatch (nullEnvelope module method args failure first) :=
    (reportsMismatch_iff hfailure).mpr ⟨hok, m, hfind, hrefutes⟩
  have hreports' : ReportsMismatch (nullEnvelope module method args failure first') :=
    (hsound.orderless first' hfirst').mpr ((hsound.orderless first hfirst).mp hreports)
  obtain ⟨-, found, hfound, hfoundRefutes⟩ := (reportsMismatch_iff hfailure).mp hreports'
  cases hfind'.symm.trans hfound
  exact hfoundRefutes

/-- If the entries agree, every one of them refutes the arguments when a mismatch is reported. -/
theorem all_refute (hfailure : failure.code ≠ "argument_mismatch")
    (hagree : failure.ok = true → Agree method args methods) {l : List MethodInfo}
    (hperm : l.Perm methods)
    (hreports : ReportsMismatch (nullEnvelope module method args failure l)) :
    failure.ok = true ∧ (∃ m ∈ methods, m.name = method) ∧
      ∀ m ∈ methods, m.name = method → ∃ reason, Refutes m args reason := by
  obtain ⟨hok, found, hfind, hrefutes⟩ := (reportsMismatch_iff hfailure).mp hreports
  have hfound : found ∈ methods := hperm.mem_iff.mp (List.mem_of_find?_eq_some hfind)
  have hname : found.name = method := by simpa using List.find?_some hfind
  exact ⟨hok, ⟨found, hfound, hname⟩,
    fun m hm hm' => hagree hok found hfound m hm hname hm' hrefutes⟩

/-- If the entries agree, a mismatch is reported in one order as in any other. -/
theorem reports_of_perm (hfailure : failure.code ≠ "argument_mismatch")
    (hagree : failure.ok = true → Agree method args methods) {l l' : List MethodInfo}
    (hl : l.Perm methods) (hl' : l'.Perm methods)
    (hreports : ReportsMismatch (nullEnvelope module method args failure l)) :
    ReportsMismatch (nullEnvelope module method args failure l') := by
  obtain ⟨hok, ⟨m, hm, hname⟩, hall⟩ := all_refute hfailure hagree hl hreports
  obtain ⟨found, hfind⟩ : ∃ found, l'.find? (fun m => m.name == method) = some found := by
    refine Option.isSome_iff_exists.mp (List.find?_isSome.mpr ⟨m, hl'.mem_iff.mpr hm, ?_⟩)
    simpa using hname
  have hfound : found ∈ methods := hl'.mem_iff.mp (List.mem_of_find?_eq_some hfind)
  have hfoundName : found.name = method := by simpa using List.find?_some hfind
  exact (reportsMismatch_iff hfailure).mpr ⟨hok, found, hfind, hall found hfound hfoundName⟩

/-- **When the check is sound**: exactly when the entries of the name agree about the arguments, all
of them refuting these or none.  A call that failed by itself is not checked. -/
theorem overloads_sound_iff (hfailure : failure.code ≠ "argument_mismatch") :
    SoundUnderOverloading module method args failure methods ↔
      (failure.ok = true → ∀ m ∈ methods, ∀ m' ∈ methods, m.name = method → m'.name = method →
        (∃ reason, Refutes m args reason) → ∃ reason, Refutes m' args reason) := by
  constructor
  · exact fun hsound hok => agree_of_sound hfailure hsound hok
  · intro hagree
    refine ⟨?_, ?_⟩
    · intro hreports m hm hname
      obtain ⟨-, -, hall⟩ := all_refute hfailure hagree (List.Perm.refl _) hreports
      obtain ⟨reason, hreason⟩ := hall m hm hname
      exact cannotTake_of_refutes hreason
    · intro methods' hperm
      exact ⟨reports_of_perm hfailure hagree hperm (List.Perm.refl _),
        reports_of_perm hfailure hagree (List.Perm.refl _) hperm⟩

end Overloads

/-! ## 3. A method of two signatures -/

/-- One name, for a string and for a number. -/
def overloaded : List MethodInfo :=
  [⟨"lookup", ["QString"], true⟩, ⟨"lookup", ["int"], true⟩]

/-- The second signature takes a number, and a number is reported as a mismatch. -/
theorem number_refused :
    ¬ SoundUnderOverloading "store" "lookup" (.arr [.int 7]) {} overloaded := by
  intro hsound
  have hreports : ReportsMismatch
      (nullEnvelope "store" "lookup" (.arr [.int 7]) {} overloaded) := ⟨_, rfl, rfl⟩
  obtain ⟨-, htake⟩ := hsound.conservative hreports ⟨"lookup", ["int"], true⟩ (by decide) rfl
  obtain ⟨i, reason, qtName, v, t, htype, hv, -, ht, haccepts, -⟩ := htake [.int 7] rfl rfl
  cases i with
  | zero =>
    cases htype
    cases hv
    cases ht
    cases haccepts
  | succ i => cases htype

/-- Neither signature takes a list. -/
theorem list_refused :
    SoundUnderOverloading "store" "lookup" (.arr [.arr []]) {} overloaded := by
  refine (overloads_sound_iff (by decide)).mpr ?_
  intro _ m hm m' hm' _ _ _
  have hrefutes : ∀ m ∈ overloaded,
      ∃ reason, argumentMismatch m (.arr [.arr []]) = some reason := by
    intro m hm
    simp only [overloaded, List.mem_cons, List.not_mem_nil, or_false] at hm
    rcases hm with rfl | rfl
    · exact ⟨_, rfl⟩
    · exact ⟨_, rfl⟩
  obtain ⟨reason, hreason⟩ := hrefutes m' hm'
  exact ⟨reason, argumentMismatch_eq_some_iff.mp hreason⟩

end Logosctl.CallEnvelope
