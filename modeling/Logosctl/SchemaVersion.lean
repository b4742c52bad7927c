/-
# The schema version of the four documents

The daemon's configuration, its published state, the client's configuration and the token list each
say which schema they follow, and each has a reader of its own that looks at `version` first.  They
are meant to agree: version 2 is read, and any other is refused whatever else the document says.

Only the daemon's reader compares the number as it is written.  The other three convert it to `int`
first, so a document whose version is 2 modulo 2^32 is taken for one of version 2
(`gatedAlike_iff`).
-/
import Logosctl.ClientState
import Logosctl.DaemonConfig.Write
import Logosctl.DaemonState
import Logosctl.TokenStore

namespace Logosctl

open JsonSchema YamlJson

/-! ## 1. Documents that differ in their version -/

/-- `doc["version"] = v`, for the document with the members `kvs`. -/
def versioned (v : Int) (kvs : List (String × Json)) : Json := .obj (assign "version" (.int v) kvs)

section Versioned

variable {v w : Int} {kvs : List (String × Json)} {k dotted : String}

@[simp] theorem isObject_versioned : (versioned v kvs).isObject = true := rfl

@[simp] theorem find?_versioned : (versioned v kvs).find? "version" = some (.int v) := by
  rw [versioned, find?_obj, lookup_assign, if_pos rfl]

/-- Every other member is the same, whatever the version. -/
theorem find?_versioned_of_ne (hk : k ≠ "version") :
    (versioned v kvs).find? k = (versioned w kvs).find? k := by
  rw [versioned, versioned, find?_obj, find?_obj, lookup_assign, lookup_assign, if_neg hk,
    if_neg hk]

theorem present_versioned (hk : k ≠ "version") :
    Reader.present ⟨versioned v kvs, dotted⟩ k =
      Reader.present ⟨versioned w kvs, dotted⟩ k := by
  simp only [Reader.present, find?_versioned_of_ne hk (v := v) (w := w)]

theorem str_versioned (hk : k ≠ "version") (dflt : String) :
    Reader.str ⟨versioned v kvs, dotted⟩ k dflt =
      Reader.str ⟨versioned w kvs, dotted⟩ k dflt := by
  simp only [Reader.str, present_versioned hk (v := v) (w := w), Reader.path]

theorem integer_versioned (hk : k ≠ "version") (dflt min max : Int) :
    Reader.integer ⟨versioned v kvs, dotted⟩ k dflt min max =
      Reader.integer ⟨versioned w kvs, dotted⟩ k dflt min max := by
  simp only [Reader.integer, present_versioned hk (v := v) (w := w), Reader.path]

theorem mapping_versioned (hk : k ≠ "version") (expected : String) :
    Reader.mapping ⟨versioned v kvs, dotted⟩ k expected =
      Reader.mapping ⟨versioned w kvs, dotted⟩ k expected := by
  simp only [Reader.mapping, present_versioned hk (v := v) (w := w), Reader.path]

/-- What reading the version of a document gives: the number as it is written, or, for one past the
signed range, a message. -/
def readVersion (v : Int) : Int × Errors := (Reader.integer ⟨versioned v [], ""⟩ "version" 0).run {}

theorem run_version :
    (Reader.integer ⟨versioned v kvs, ""⟩ "version" 0).run {} = readVersion v := by
  simp only [readVersion, Reader.integer, Reader.present, find?_versioned, Reader.path]

/-- The signed range, which is what the strict readers accept. -/
def InInt64 (v : Int) : Prop := Reader.int64Min ≤ v ∧ v ≤ Reader.int64Max

theorem readVersion_of_inInt64 (h : InInt64 v) : readVersion v = (v, {}) :=
  reads_integer find?_versioned h.1 h.2 h.2

theorem readVersion_of_not (h : ¬ InInt64 v) : (readVersion v).2.ok = false := by
  cases hok : (readVersion v).2.ok with
  | false => rfl
  | true =>
    have hreads : Reads (Reader.integer ⟨versioned v [], ""⟩ "version" 0) (readVersion v).1 :=
      Prod.ext rfl (errors_eq hok)
    exact absurd (range_of_reads_integer hreads find?_versioned) h

end Versioned

/-! ## 2. Being supported and being refused -/

/-- A document of version `v` is taken for one of version 2, whatever it says. -/
def Supports {α : Type} (R : Json → α) (v : Int) : Prop :=
  ∀ kvs, R (versioned v kvs) = R (versioned 2 kvs)

/-- A document of version `v` is answered on its version alone. -/
def Refuses {α : Type} (R : Json → α) (v : Int) : Prop :=
  ∀ kvs kvs', R (versioned v kvs) = R (versioned v kvs')

/-- Documents of version `v` are read when `n` is 2, and refused when it is not. -/
structure GatedBy {α : Type} (R : Json → α) (v n : Int) : Prop where
  supports : Supports R v ↔ n = 2
  refuses : Refuses R v ↔ n ≠ 2

/-- Documents of version `v` are read when `v` is 2, and refused when it is not. -/
def ExactlyGated {α : Type} (R : Json → α) (v : Int) : Prop := GatedBy R v v

section Gate

variable {α : Type} {R : Json → α} {v n : Int}

/-- A reader that compares `n` where the document says `v`, and does read documents of version
2. -/
theorem gatedBy_of (hreads : ¬ Refuses R 2) (hsupports : n = 2 → Supports R v)
    (hrefuses : n ≠ 2 → Refuses R v) : GatedBy R v n := by
  have hnot : Supports R v → ¬ Refuses R v := by
    intro hs hr
    exact hreads fun kvs kvs' => (hs kvs).symm.trans ((hr kvs kvs').trans (hs kvs'))
  refine ⟨⟨fun hs => ?_, hsupports⟩, ⟨fun hr hn => hnot (hsupports hn) hr, hrefuses⟩⟩
  by_contra hn
  exact hnot hs (hrefuses hn)

/-- It is exact where the comparison is. -/
theorem GatedBy.exactlyGated_iff (h : GatedBy R v n) : ExactlyGated R v ↔ (n = 2 ↔ v = 2) := by
  constructor
  · exact fun hexact => h.supports.symm.trans hexact.supports
  · intro hiff
    exact ⟨h.supports.trans hiff, h.refuses.trans (not_congr hiff)⟩

end Gate

/-! ## 3. The four readers -/

section Readers

variable {v w : Int} {kvs : List (String × Json)} {filePath dotted : String}

/-- **The daemon's reader** compares the number as it is written. -/
theorem exactlyGated_parseDaemonConfigDocument (v : Int) :
    ExactlyGated parseDaemonConfigDocument v := by
  refine gatedBy_of ?_ ?_ ?_
  · intro h
    exact absurd (h [] [("insecure_tcp", .bool true)]) (by decide +kernel)
  · rintro rfl kvs
    rfl
  · intro hv kvs kvs'
    simp only [parseDaemonConfigDocument, isObject_versioned, run_version]
    by_cases hin : InInt64 v
    · rw [readVersion_of_inInt64 hin]
      simp [hv, kDaemonConfigSchemaVersion, Errors.ok]
    · simp [readVersion_of_not hin]

theorem daemonFromJson_versioned (es : List (String × Json)) : ∀ acc,
    ClientState.daemonFromJson ⟨versioned v kvs, dotted⟩ es acc =
      ClientState.daemonFromJson ⟨versioned w kvs, dotted⟩ es acc := by
  induction es with
  | nil => exact fun _ => rfl
  | cons e es ih =>
    intro acc
    simp only [ClientState.daemonFromJson, ih, Reader.path]

/-- The number the other two strict readers compare; past the signed range there is none. -/
def comparedVersion (v : Int) : Int :=
  if (readVersion v).2.ok then Json.toInt32 (readVersion v).1 else 0

theorem comparedVersion_eq_two (h : comparedVersion v = 2) :
    readVersion v = (v, {}) ∧ Json.toInt32 v = 2 := by
  unfold comparedVersion at h
  by_cases hin : InInt64 v
  · rw [readVersion_of_inInt64 hin] at h ⊢
    exact ⟨rfl, h⟩
  · rw [readVersion_of_not hin, if_neg Bool.false_ne_true] at h
    cases h

/-- What is compared is no 2. -/
theorem toInt32_ne_two (h : comparedVersion v ≠ 2) (hok : (readVersion v).2.ok = true) :
    Json.toInt32 (readVersion v).1 ≠ 2 := by
  unfold comparedVersion at h
  rwa [hok, if_pos rfl] at h

theorem gatedBy_state (filePath : String) (v : Int) :
    GatedBy (fun doc => DaemonRuntimeStateFile.read filePath (some doc)) v
      (comparedVersion v) := by
  refine gatedBy_of ?_ ?_ ?_
  · intro h
    have hpid : (-1 : Int) = 7 := congrArg (·.1.pid) (h [] [("pid", .int 7)])
    exact absurd hpid (by decide)
  · intro hv kvs
    obtain ⟨hread, h32⟩ := comparedVersion_eq_two hv
    have hread₂ : readVersion 2 = (2, {}) := rfl
    have hfields : runtimeStateFields (versioned v kvs) 2 =
        runtimeStateFields (versioned 2 kvs) 2 := by
      simp only [runtimeStateFields, str_versioned (v := v) (w := 2) (k := "instance_id")
        (by decide), integer_versioned (v := v) (w := 2) (k := "pid") (by decide),
        str_versioned (v := v) (w := 2) (k := "started_at") (by decide),
        str_versioned (v := v) (w := 2) (k := "config_source") (by decide),
        mapping_versioned (v := v) (w := 2) (k := "resolved") (by decide)]
    have h32₂ : Json.toInt32 2 = 2 := rfl
    simp only [DaemonRuntimeStateFile.read, isObject_versioned, run_version, hread, hread₂, h32,
      h32₂, hfields]
  · intro hv kvs kvs'
    simp only [DaemonRuntimeStateFile.read, isObject_versioned, run_version]
    cases hok : (readVersion v).2.ok with
    | false => simp
    | true => simp [kDaemonRuntimeStateSchemaVersion, toInt32_ne_two hv hok]

theorem gatedBy_client (v : Int) : GatedBy parseClientStateDocument v (comparedVersion v) := by
  refine gatedBy_of ?_ ?_ ?_
  · intro h
    exact absurd (h [] [("token_file", .str "auto.json")]) (by decide +kernel)
  · intro hv kvs
    obtain ⟨hread, h32⟩ := comparedVersion_eq_two hv
    have hread₂ : readVersion 2 = (2, {}) := rfl
    have h32₂ : Json.toInt32 2 = 2 := rfl
    have hblock : ClientState.daemonBlock ⟨versioned v kvs, ""⟩ =
        ClientState.daemonBlock ⟨versioned 2 kvs, ""⟩ := by
      simp only [ClientState.daemonBlock, mapping_versioned (v := v) (w := 2) (k := "daemon")
        (by decide), daemonFromJson_versioned (v := v) (w := 2)]
    have hfields : ClientState.fields (versioned v kvs) 2 =
        ClientState.fields (versioned 2 kvs) 2 := by
      simp only [ClientState.fields, hblock, str_versioned (v := v) (w := 2) (k := "token_file")
        (by decide), str_versioned (v := v) (w := 2) (k := "instance_id") (by decide)]
    simp only [parseClientStateDocument, isObject_versioned, run_version, hread, hread₂, h32,
      h32₂, hfields]
  · intro hv kvs kvs'
    simp only [parseClientStateDocument, isObject_versioned, run_version]
    cases hok : (readVersion v).2.ok with
    | false => simp
    | true => simp [kClientStateSchemaVersion, toInt32_ne_two hv hok]

theorem valueInt_versioned :
    (versioned v kvs).valueInt "version" 0 = .ok (Json.toInt32 v) := by
  have hfind : (assign "version" (.int v) kvs).lookup "version" = some (.int v) :=
    find?_versioned
  simp only [Json.valueInt, Json.value, versioned, hfind, Json.getInt]

/-- The token list as its reader finds it, version and all. -/
theorem read_versioned : TokenStore.TokensFile.read (.document (versioned v kvs)) =
    if Json.toInt32 v ≠ 2 then .ok []
    else
      match kvs.lookup "tokens" with
      | some (.arr xs) => TokenStore.readEntries xs
      | _ => .ok [] := by
  have htokens : (versioned v kvs).find? "tokens" = kvs.lookup "tokens" := by
    rw [versioned, find?_obj, lookup_assign, if_neg (by decide)]
  simp only [TokenStore.TokensFile.read, valueInt_versioned, htokens]
  rfl

theorem gatedBy_tokens (v : Int) :
    GatedBy (fun doc => TokenStore.TokensFile.read (.document doc)) v (Json.toInt32 v) := by
  refine gatedBy_of ?_ ?_ ?_
  · intro h
    have hone : TokenStore.TokensFile.read (.document (versioned 2 [])) =
      TokenStore.TokensFile.read (.document (versioned 2 [("tokens", .arr [.obj
        [("hash", .str "00"), ("name", .str "alice")]])])) := h [] _
    exact absurd hone (by decide +kernel)
  · intro hv kvs
    simp only [read_versioned, hv]
    rfl
  · intro hv kvs kvs'
    simp only [read_versioned, if_pos hv]

/-- The store's own check is of the number its reader compares. -/
theorem onDiskVersionUnsupported_versioned :
    TokenStore.TokensFile.onDiskVersionUnsupported (.document (versioned v kvs)) =
      .ok (Json.toInt32 v != 2) := by
  simp only [TokenStore.TokensFile.onDiskVersionUnsupported, isObject_versioned,
    valueInt_versioned]
  rfl

end Readers

/-! ## 4. The four together -/

/-- What is meant to hold of every number: all four readers gate it exactly, and the store's check
before it writes tells what its reader refuses. -/
structure GatedAlike (v : Int) : Prop where
  config : ExactlyGated parseDaemonConfigDocument v
  state : ∀ filePath, ExactlyGated (fun doc => DaemonRuntimeStateFile.read filePath (some doc)) v
  client : ExactlyGated parseClientStateDocument v
  tokens : ExactlyGated (fun doc => TokenStore.TokensFile.read (.document doc)) v
  unsupported : ∀ kvs,
    TokenStore.TokensFile.onDiskVersionUnsupported (.document (versioned v kvs)) = .ok true ↔
      Refuses (fun doc => TokenStore.TokensFile.read (.document doc)) v

theorem toInt32_eq_two_iff {v : Int} : Json.toInt32 v = 2 ↔ v % 2 ^ 32 = 2 := by
  unfold Json.toInt32
  rw [Int.bmod_def]
  split <;> omega

/-- **A version is gated exactly** unless it is another number that is 2 modulo 2^32. -/
theorem gatedAlike_iff (v : Int) : GatedAlike v ↔ (v % 2 ^ 32 = 2 → v = 2) := by
  have hback : v = 2 → v % 2 ^ 32 = 2 := by
    rintro rfl
    rfl
  have htokens := (gatedBy_tokens v).exactlyGated_iff
  rw [toInt32_eq_two_iff] at htokens
  constructor
  · exact fun h => (htokens.mp h.tokens).mp
  · intro hexact
    have hcompared : comparedVersion v = 2 ↔ v = 2 := by
      refine ⟨fun h => ?_, ?_⟩
      · exact hexact (toInt32_eq_two_iff.mp (comparedVersion_eq_two h).2)
      · rintro rfl
        rfl
    refine ⟨exactlyGated_parseDaemonConfigDocument v, fun filePath => ?_, ?_, ?_, fun kvs => ?_⟩
    · exact (gatedBy_state filePath v).exactlyGated_iff.mpr hcompared
    · exact (gatedBy_client v).exactlyGated_iff.mpr hcompared
    · exact htokens.mpr ⟨hexact, hback⟩
    · rw [onDiskVersionUnsupported_versioned, (gatedBy_tokens v).refuses]
      simp

/-- Version 4294967298 is refused in the daemon's configuration and taken for version 2 in the
others. -/
theorem not_gatedAlike_future : ¬ GatedAlike 4294967298 := by
  intro h
  have hread := (gatedBy_client 4294967298).supports.mpr rfl
  exact absurd (h.client.supports.mp hread) (by decide)

end Logosctl
